import CommandDeck.Registry
import CommandDeck.Terminal.Execution
import CommandDeck.Terminal.Session
import CommandDeck.Text.Blank

/-!
# Turns of the terminal

One line is one turn. A blank line does nothing at all. Any other line is echoed, split into words
and obeyed, step by step; a step that fails ends the turn with an error. The registry is looked at by a
synchronisation only.
-/

namespace CommandDeck

/-- Why a line cannot be obeyed. -/
inductive TurnError where
  | session (e : SessionError)
  | unknownCommand (word : String)
  | unknownSubcommand (word : String)
  | missingTarget
  | cacheEmpty
  | notFound (target : String)
  | missingFlags (flags : List String)
  deriving DecidableEq

namespace TurnError

def message : TurnError → String
  | session e => e.message
  | unknownCommand word => "command not found: " ++ word ++ ". Try \"nexus\" or \"help\"."
  | unknownSubcommand word => "Unknown command: " ++ word
  | missingTarget => "Error: Missing command name. Usage: nexus run <namespace:command>"
  | cacheEmpty => "Error: Local manifest cache empty. Run \"nexus sync\"."
  | notFound target => "Error: Command \"" ++ target ++ "\" not found in local cache."
  | missingFlags flags => "Error: Missing required flags: " ++ ", ".intercalate flags

end TurnError

/-- The name shown after a login, and the delays of a turn. -/
structure TerminalOptions where
  account : String
  syncDelay : Duration
  stages : StageDelays

namespace TerminalOptions

def withoutDelays (o : TerminalOptions) : TerminalOptions :=
  { o with syncDelay := 0, stages := .none }

end TerminalOptions

/-- A turn as far as it has come, with the session that it has got to. -/
structure Turn extends Timeline where
  session : Session

namespace Turn

def start (session : Session) : Turn := ⟨.start, session⟩

def goOn (t : Turn) (f : Timeline → Timeline) : Turn := { t with toTimeline := f t.toTimeline }

end Turn

/-- A part of a turn. Where it fails, the turn stands as it has become by then. -/
abbrev InTurn := EStateM TurnError Turn

namespace InTurn

def goOn (f : Timeline → Timeline) : InTurn Unit := modify fun t => t.goOn f

def event (kind : EventKind) (content : String) : InTurn Unit := goOn fun t => t.event kind content

def outputs : List String → InTurn Unit
  | [] => pure ()
  | line :: rest => do
    event .output line
    outputs rest

def session : InTurn Session := return (← get).session

def enter (s : Session) : InTurn Unit := modify fun t => { t with session := s }

/-- The answer of a session, or its refusal. -/
def accepted {α : Type} : Except SessionError α → InTurn α
  | .ok a => pure a
  | .error e => throw (.session e)

end InTurn

namespace Terminal

def banner : List String := [
  "Nexus CLI v1.0.4 [Simulator]",
  "Type \"help\" for a list of commands.",
  "Try \"nexus login <key>\" to start."]

def help : List String := [
  "Available commands:",
  "  nexus login <key>    Authenticate with Nexus Cloud",
  "  nexus sync           Fetch latest manifests from production",
  "  nexus list           List all available commands",
  "  nexus run <cmd>      Execute a remote command",
  "  clear                Clear terminal"]

def usage : List String := ["Nexus CLI v1.0.4", "Usage: nexus <command> [flags]"]

def listHeader : List String := [
  "NAMESPACE       COMMAND             DESCRIPTION",
  "-----------     -------             -----------"]

/-- A text followed by spaces up to the given number of characters. -/
def column (width : Nat) (s : String) : String :=
  s ++ String.ofList (List.replicate (width - s.length) ' ')

def listLine (m : Manifest) (c : Command) : String :=
  column 15 m.namespaceName ++ " " ++ column 19 c.name ++ " " ++ c.description

def listLines (cache : List Manifest) : List String :=
  if cache.isEmpty then ["No commands found. Run \"nexus sync\" to fetch manifests."]
  else listHeader ++ cache.flatMap fun m => m.commands.map (listLine m)

/-- The banner as a terminal shows it when it starts. -/
def bannerEmissions : List Emission := banner.map fun s => .event .info s 0

open InTurn

def login (o : TerminalOptions) (words : List String) : InTurn Unit := do
  let s ← session
  let state ← accepted (s.state.login words.head?)
  enter { s with state := state }
  event .success ("Successfully authenticated as " ++ o.account)

/-- Takes a snapshot of the registry when the delay is over, and asks the session only then. -/
def sync (o : TerminalOptions) (registry : Registry) (watch : Watch) : InTurn Unit := do
  event .info "Connecting to Nexus Control Plane..."
  goOn fun t => t.pause watch o.syncDelay
  let next ← accepted ((← session).sync registry.manifests)
  enter next
  event .success
    ("Synced " ++ String.ofList (NumberLayout.digits next.cache.length) ++ " manifests.")

def run (o : TerminalOptions) (watch : Watch) (words : List String) : InTurn Unit := do
  match words with
  | [] => throw .missingTarget
  | target :: given =>
    let cache := (← session).cache
    if cache.isEmpty then throw .cacheEmpty
    else match resolve? cache target with
      | none => throw (.notFound target)
      | some r =>
        match r.command.invoke r.manifest.namespaceName given with
        | .error missing => throw (.missingFlags missing)
        | .ok inv => goOn (inv.run o.stages watch)

def subcommand (o : TerminalOptions) (registry : Registry) (watch : Watch) (words : List String) :
    InTurn Unit := do
  match words with
  | [] => outputs usage
  | word :: more =>
    if word = "login" then login o more
    else
      let s ← session
      accepted s.state.requireLogin
      if word = "sync" then sync o registry watch
      else if word = "list" then outputs (listLines s.cache)
      else if word = "run" then run o watch more
      else throw (.unknownSubcommand word)

/-- Obeys the words of a line of which `word` is the first. -/
def obey (o : TerminalOptions) (registry : Registry) (watch : Watch) (word : String)
    (more : List String) : InTurn Unit :=
  if word = "clear" then goOn fun t => t.emit .clear
  else if word = "help" then outputs help
  else if word = "nexus" then subcommand o registry watch more
  else throw (.unknownCommand word)

/-- A line without the line breaks at its end. -/
def echo (line : String) : String :=
  String.ofList (line.toList.reverse.dropWhile fun c => c == '\r' || c == '\n').reverse

/-- One turn. An error comes after what has been shown before it. -/
def interpret (o : TerminalOptions) (registry : Registry) (watch : Watch) (session : Session)
    (line : String) : Turn :=
  match Text.wordsOf line with
  | [] => .start session
  | word :: more =>
    let echoed := (Turn.start session).goOn fun t => t.event .input (echo line)
    match obey o registry watch word more echoed with
    | .ok () turn => turn
    | .error e turn => turn.goOn fun t => t.event .error e.message

end Terminal

end CommandDeck
