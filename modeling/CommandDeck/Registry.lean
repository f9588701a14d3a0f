import Std.Data.HashMap
import CommandDeck.Manifest.Lookup
import CommandDeck.Manifest.Validation

/-!
# The registry

The manifests that are published, in the order in which their namespaces first came. Publishing
replaces the manifest of the namespace as a whole or changes nothing. Two tables go with the list:
where each namespace stands in it, and which namespace owns each command id. An id belongs to the
namespace that published it until that namespace publishes a manifest without it.
-/

namespace CommandDeck

structure Registry where
  manifests : List Manifest
  position : Std.HashMap String Nat
  owner : Std.HashMap String String

/-- A manifest that was not published, and why. -/
structure Rejection where
  namespaceName : String
  report : Report

namespace Rejection

def message (r : Rejection) : String :=
  "Manifest '" ++ r.namespaceName ++ "' rejected with " ++
    String.ofList (NumberLayout.digits r.report.size) ++ " validation error(s):\n" ++
    r.report.toText

end Rejection

namespace Registry

def empty : Registry := ⟨[], {}, {}⟩

/-- The ids of the manifest that are owned by another namespace. -/
def ownershipFindings (r : Registry) (m : Manifest) : List Finding :=
  m.commands.filterMap fun c =>
    match r.owner[c.id]? with
    | some owner =>
      if owner = m.namespaceName then none else some (Place.command c.id .id, .idTaken owner)
    | none => none

/-- Everything that keeps a manifest out of this registry. -/
def review (r : Registry) (m : Manifest) : Report := m.validate.insertAll (r.ownershipFindings m)

/-- Takes the commands of a manifest out of the table of owners. -/
def releaseOwners (owner : Std.HashMap String String) (m : Manifest) : Std.HashMap String String :=
  m.commands.foldl (fun owner c => owner.erase c.id) owner

/-- Makes the namespace of a manifest the owner of its commands. -/
def claimOwners (owner : Std.HashMap String String) (m : Manifest) : Std.HashMap String String :=
  m.commands.foldl (fun owner c => owner.insert c.id m.namespaceName) owner

/-- Puts a manifest into the registry, in the place of the one with its namespace if there is one. -/
def store (r : Registry) (m : Manifest) : Registry :=
  match r.position[m.namespaceName]? with
  | some i =>
    let released := match r.manifests[i]? with
      | some previous => releaseOwners r.owner previous
      | none => r.owner
    ⟨r.manifests.set i m, r.position, claimOwners released m⟩
  | none =>
    ⟨r.manifests ++ [m], r.position.insert m.namespaceName r.manifests.length,
      claimOwners r.owner m⟩

/-- The registry that holds the demo manifest, stamped as given. -/
def seeded (stamp : String) : Registry := empty.store (Manifest.demo stamp)

/-- Publishes a manifest under a new stamp. Answers the new registry and the manifest as stored, or
why it is refused. -/
def publish (r : Registry) (stamp : String) (m : Manifest) :
    Except Rejection (Registry × Manifest) :=
  let report := r.review m
  if report.isEmpty then
    let stamped := { m with generatedAt := stamp }
    .ok (r.store stamped, stamped)
  else .error ⟨m.namespaceName, report⟩

def get? (r : Registry) (namespaceName : String) : Option Manifest :=
  r.position[namespaceName]?.bind fun i => r.manifests[i]?

def lookup? (r : Registry) (target : String) : Option Resolved := resolve? r.manifests target

end Registry

end CommandDeck
