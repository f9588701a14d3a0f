import CommandDeck.Manifest.Basic

/-!
# Editing a manifest

An edit names a command by its id and changes every command that has it; an id that no command has
changes nothing, and neither does an argument index out of range. What an edit does not name it
leaves as it was.
-/

namespace CommandDeck

/-- New values for the fields of a command that can be edited. -/
structure CommandPatch where
  name? : Option String
  description? : Option String
  language? : Option String
  entrypoint? : Option String
  runtime? : Option String
  returns? : Option String

/-- New values for the fields of an argument that can be edited. -/
structure ArgumentPatch where
  name? : Option String
  cli? : Option String
  placement? : Option Placement
  type? : Option ArgumentType
  required? : Option Bool
  description? : Option String

namespace CommandPatch

def apply (p : CommandPatch) (c : Command) : Command :=
  { c with
    name := p.name?.getD c.name
    description := p.description?.getD c.description
    language := p.language?.getD c.language
    entrypoint := p.entrypoint?.getD c.entrypoint
    runtime := p.runtime?.getD c.runtime
    returns := p.returns?.getD c.returns }

end CommandPatch

namespace ArgumentPatch

def apply (p : ArgumentPatch) (a : Argument) : Argument :=
  { a with
    name := p.name?.getD a.name
    cli := p.cli?.getD a.cli
    placement := p.placement?.getD a.placement
    type := p.type?.getD a.type
    required := p.required?.getD a.required
    description := p.description?.getD a.description }

end ArgumentPatch

namespace Manifest

def modifyCommand (m : Manifest) (id : String) (f : Command → Command) : Manifest :=
  { m with commands := m.commands.map fun c => if c.id = id then f c else c }

/-- Changes the arguments of every command with the id `id`. -/
def modifyArguments (m : Manifest) (id : String) (f : List Argument → List Argument) : Manifest :=
  m.modifyCommand id fun c => { c with arguments := f c.arguments }

def updateCommand (m : Manifest) (id : String) (p : CommandPatch) : Manifest :=
  m.modifyCommand id p.apply

def updateArgument (m : Manifest) (id : String) (index : Nat) (p : ArgumentPatch) : Manifest :=
  m.modifyArguments id fun as => as.modify index p.apply

def addArgument (m : Manifest) (id : String) : Manifest :=
  m.modifyArguments id fun as => as ++ [Argument.fresh]

def removeArgument (m : Manifest) (id : String) (index : Nat) : Manifest :=
  m.modifyArguments id fun as => as.eraseIdx index

end Manifest

/-- A line that runs a command, with a place for the value of each argument. -/
def Command.usage (c : Command) : String :=
  " ".intercalate (("nexus run " ++ c.name) :: c.arguments.map fun a => a.cli ++ " <value>")

end CommandDeck
