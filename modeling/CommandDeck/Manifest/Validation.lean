import CommandDeck.Manifest.Basic
import CommandDeck.Manifest.Report
import CommandDeck.Text.Blank

/-!
# The rules for publishing

A manifest may be published when none of its commands breaks a rule: names, flags and runtimes must
be there and have their form, and no id may come twice. A rule about the form of a text is only
asked of a text that is not blank, so that each text breaks one rule at most.
-/

namespace CommandDeck

/-- Lower case letters, digits and dashes. -/
def isKebabChar (c : Char) : Bool := ('a' ≤ c && c ≤ 'z') || ('0' ≤ c && c ≤ '9') || c == '-'

/-- Letters, digits and the underscore, all of them ASCII. -/
def isNameChar (c : Char) : Bool :=
  ('a' ≤ c && c ≤ 'z') || ('A' ≤ c && c ≤ 'Z') || ('0' ≤ c && c ≤ '9') || c == '_'

def isKebabName (s : String) : Bool := !s.toList.isEmpty && s.toList.all isKebabChar

def isArgumentName (s : String) : Bool := !s.toList.isEmpty && s.toList.all isNameChar

/-- One or two dashes and then one or more characters of a command name. As a dash is one of these,
it is enough to ask for one dash and at least one more character. -/
def isFlag (s : String) : Bool :=
  match s.toList with
  | '-' :: rest => !rest.isEmpty && rest.all isKebabChar
  | _ => false

def formViolation (form : String → Bool) (missing wrong : Violation) (s : String) :
    Option Violation :=
  if Text.isBlankText s then some missing else if form s then none else some wrong

namespace Argument

/-- What is wrong with the argument at `index` of a command with the id `id`. -/
def findings (id : String) (index : Nat) (a : Argument) : List Finding :=
  ((formViolation isFlag .flagMissing .flagForm a.cli).toList.map
    fun v => (Place.argument id index .cli, v)) ++
  ((formViolation isArgumentName .argumentNameMissing .argumentNameForm a.name).toList.map
    fun v => (Place.argument id index .name, v))

end Argument

namespace Command

/-- What is wrong with arguments of which the first stands at `index`. -/
def argumentFindings (id : String) : Nat → List Argument → List Finding
  | _, [] => []
  | index, a :: rest => a.findings id index ++ argumentFindings id (index + 1) rest

def findings (c : Command) : List Finding :=
  ((formViolation isKebabName .nameMissing .nameForm c.name).toList.map
    fun v => (Place.command c.id .name, v)) ++
  (if Text.isBlankText c.runtime then [(Place.command c.id .runtime, .runtimeMissing)] else []) ++
  argumentFindings c.id 0 c.arguments

end Command

namespace Manifest

/-- What is wrong with commands that follow commands with the ids `seen`. -/
def findingsAfter (seen : List String) : List Command → List Finding
  | [] => []
  | c :: rest =>
    (if seen.contains c.id then [(Place.command c.id .id, .idRepeated)] else []) ++
      c.findings ++ findingsAfter (c.id :: seen) rest

/-- Everything that keeps a manifest from being published. -/
def validate (m : Manifest) : Report := Report.ofFindings (findingsAfter [] m.commands)

end Manifest

end CommandDeck
