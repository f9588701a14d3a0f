import CommandDeck.Storage.Path

/-!
# The environment

What the surroundings of a program say about it: the home folder, two places that may be given instead
of those below it, one for the settings and one for the journal, whether colours are wanted, and whether
lines must be asked for. A place for the settings that is blank counts as not given.
-/

namespace CommandDeck

structure Environment where
  values : List (String × String)
  home : String
  settings? : Option String
  journal? : Option String
  colours : Bool
  asksForLines : Bool

/-- The path of a name in a folder, both given as texts. -/
def joinedPath (folder name : String) : String := ((Path.ofText folder).child name).text

namespace Environment

/-- Colours are wanted. They can be forced or forbidden; where they are neither, they are wanted on a
terminal that has not given them up. -/
def wantsColours (get? : String → Option String) (terminal : Bool) : Bool :=
  if (get? "CLICOLOR_FORCE").any (· != "0") then true
  else if (get? "NO_COLOR").isSome then false
  else terminal && get? "CLICOLOR" != some "0"

/-- The terminals that cannot edit a line. -/
def plainTerminals : List String := ["dumb", "cons25", "emacs"]

/-- The environment that variables describe, where the output goes to a terminal or not. Without a home
folder it is that of the system. -/
def ofVariables (values : List (String × String)) (terminal : Bool) : Environment :=
  let get? (name : String) : Option String := values.lookup name
  { values := values
    home := ((get? "HOME").filter fun s => !s.isEmpty).getD "/root"
    settings? := (get? "NEXUS_CONFIG").bind fun s =>
      if Text.isBlankText s then none else some (Text.trimmed s)
    journal? := (get? "NEXUS_LOG_DIR").bind fun s => if s.isEmpty then none else some s
    colours := wantsColours get? terminal
    asksForLines := (get? "TERM").any fun s => plainTerminals.contains s.toLower }

def folder (e : Environment) : String := joinedPath (joinedPath e.home ".config") "nexus"

def journalFolder (e : Environment) : String := e.journal?.getD e.folder

def journalName : String := "nexus.log"

def journalPath (e : Environment) : String := joinedPath e.journalFolder journalName

/-- The settings file, unless another one is given. -/
def usualSettings (e : Environment) : String := joinedPath e.folder "nexus.toml"

def settingsPointer (e : Environment) : String := joinedPath e.folder ".nexus_config_path"

end Environment

end CommandDeck
