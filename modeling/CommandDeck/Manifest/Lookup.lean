import CommandDeck.Manifest.Basic

/-!
# Finding a command

A target names a command by its id, whatever manifest holds it, or else by its bare name, where the
first command in the order of manifests and commands wins.
-/

namespace CommandDeck

/-- A command together with the manifest that holds it. -/
structure Resolved where
  manifest : Manifest
  command : Command

def findCommand? (wanted : Command → Bool) : List Manifest → Option Resolved
  | [] => none
  | m :: rest =>
    match m.commands.find? wanted with
    | some c => some ⟨m, c⟩
    | none => findCommand? wanted rest

def resolve? (manifests : List Manifest) (target : String) : Option Resolved :=
  match findCommand? (fun c => c.id == target) manifests with
  | some r => some r
  | none => findCommand? (fun c => c.name == target) manifests

end CommandDeck
