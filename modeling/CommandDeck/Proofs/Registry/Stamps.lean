import CommandDeck.Proofs.Registry.Coherence
import CommandDeck.Terminal.Opening

/-!
# Stamps do not matter

Two registries that differ at most in the stamps of their manifests get the same manifests with the same
outcome, whatever the stamps of the offers are, and differ again at most in stamps.
-/

namespace CommandDeck

namespace Manifest

/-- The manifest but for its stamp. -/
def unstamped (m : Manifest) : Manifest := { m with generatedAt := "" }

variable {m n : Manifest}

theorem namespaceName_of_unstamped (h : m.unstamped = n.unstamped) :
    m.namespaceName = n.namespaceName := by
  change m.unstamped.namespaceName = n.unstamped.namespaceName
  rw [h]

theorem ids_of_unstamped (h : m.unstamped = n.unstamped) : m.ids = n.ids := by
  change m.unstamped.ids = n.unstamped.ids
  rw [h]

end Manifest

namespace Registry

/-- The registries hold the same manifests but for the stamps, and say the same about each. -/
structure SameButStamps (r s : Registry) : Prop where
  manifests : r.manifests.map Manifest.unstamped = s.manifests.map Manifest.unstamped
  position : ∀ n : String, r.position[n]? = s.position[n]?
  owner : ∀ id : String, r.owner[id]? = s.owner[id]?

namespace SameButStamps

variable {r s : Registry}

theorem refl (r : Registry) : SameButStamps r r := ⟨rfl, fun _ => rfl, fun _ => rfl⟩

theorem review (h : SameButStamps r s) (m : Manifest) : r.review m = s.review m := by
  simp only [Registry.review, ownershipFindings, h.owner]

theorem length (h : SameButStamps r s) : r.manifests.length = s.manifests.length := by
  simpa using congrArg List.length h.manifests

/-- What stands at a position of both lists differs at most in the stamp. -/
theorem getElem? (h : SameButStamps r s) (i : Nat) :
    r.manifests[i]?.map Manifest.unstamped = s.manifests[i]?.map Manifest.unstamped := by
  rw [← List.getElem?_map, ← List.getElem?_map, h.manifests]

theorem owner_claimed {owner other : Std.HashMap String String} {m n : Manifest}
    (same : m.unstamped = n.unstamped) (before : ∀ id : String, owner[id]? = other[id]?)
    (id : String) : (claimOwners owner m)[id]? = (claimOwners other n)[id]? := by
  rw [getElem?_claimOwners, getElem?_claimOwners, Manifest.ids_of_unstamped same,
    Manifest.namespaceName_of_unstamped same, before]

theorem owner_released {owner other : Std.HashMap String String} {m n : Manifest}
    (same : m.unstamped = n.unstamped) (before : ∀ id : String, owner[id]? = other[id]?)
    (id : String) : (releaseOwners owner m)[id]? = (releaseOwners other n)[id]? := by
  rw [getElem?_releaseOwners, getElem?_releaseOwners, Manifest.ids_of_unstamped same, before]

theorem store (h : SameButStamps r s) {m n : Manifest} (same : m.unstamped = n.unstamped) :
    SameButStamps (r.store m) (s.store n) := by
  have named := Manifest.namespaceName_of_unstamped same
  have place := h.position m.namespaceName
  unfold Registry.store
  rw [← named, ← place]
  cases r.position[m.namespaceName]? with
  | none =>
    refine ⟨?_, fun name => ?_, owner_claimed same h.owner⟩
    · simp only [List.map_append, h.manifests, List.map_cons, List.map_nil, same]
    · rw [Std.HashMap.getElem?_insert, Std.HashMap.getElem?_insert, h.length, h.position]
  | some i =>
    have before := h.getElem? i
    refine ⟨?_, h.position, owner_claimed same ?_⟩
    · simp only [List.map_set, h.manifests, same]
    · cases held : r.manifests[i]? with
      | none =>
        rw [held, Option.map_none] at before
        rw [Option.map_eq_none_iff.mp before.symm]
        exact h.owner
      | some previous =>
        rw [held, Option.map_some] at before
        obtain ⟨other, there, alike⟩ := Option.map_eq_some_iff.mp before.symm
        rw [there]
        exact owner_released alike.symm h.owner

theorem after (h : SameButStamps r s) {o p : Offer} (same : o.manifest = p.manifest) :
    SameButStamps (r.after o) (s.after p) := by
  rw [after_eq, after_eq, h.review, same]
  split
  · exact h.store rfl
  · exact h

end SameButStamps

theorem start_sameButStamps (seedDemo : Bool) (clock other : Clock) :
    SameButStamps (start seedDemo clock) (start seedDemo other) := by
  cases seedDemo with
  | false => exact .refl empty
  | true => exact (SameButStamps.refl empty).store rfl

end Registry

end CommandDeck
