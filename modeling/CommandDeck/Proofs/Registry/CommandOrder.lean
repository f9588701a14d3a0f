import CommandDeck.Proofs.Manifest.Rules
import CommandDeck.Proofs.Registry.Verdict

/-!
# Commands in another order

A manifest is checked command after command, and a command that repeats an id is found by those before
it. Still the report depends on nothing but which findings there are: neither their order nor their number
shows. Different violations have different messages, so of those found at a place one has the first
message, and an id is found to be repeated in any order of the commands that have it.
-/

namespace CommandDeck

namespace Violation

theorem message_idTaken_start (owner : String) :
    (idTaken owner).message.toList.take 12 = "Command id a".toList := by
  have inside : 12 ≤ "Command id already published by namespace '".toList.length := by decide
  rw [message_idTaken, String.toList_append, String.toList_append, List.append_assoc,
    List.take_append_of_le_length inside]
  decide

/-- No other message begins like that of an id that is taken. -/
theorem message_ne_idTaken {v : Violation} (other : ∀ owner, v ≠ idTaken owner) (owner : String) :
    v.message ≠ (idTaken owner).message := by
  intro same
  have start := (congrArg (fun s => s.toList.take 12) same).trans (message_idTaken_start owner)
  cases v with
  | idTaken n => exact other n rfl
  | _ => revert start; decide

theorem idTaken_of_message {n k : String} (same : (idTaken n).message = (idTaken k).message) :
    n = k := by
  rw [message_idTaken, message_idTaken] at same
  have texts := congrArg String.toList same
  simp only [String.toList_append] at texts
  exact String.toList_injective (List.append_cancel_left (List.append_cancel_right texts))

theorem message_injective {v w : Violation} (same : v.message = w.message) : v = w := by
  cases v with
  | idTaken n =>
    cases w with
    | idTaken k => rw [idTaken_of_message same]
    | _ => exact absurd same.symm (message_ne_idTaken (by simp) n)
  | _ =>
    cases w with
    | idTaken k => exact absurd same (message_ne_idTaken (by simp) k)
    | _ => revert same; decide

end Violation

namespace Report

/-- A report does not tell in which order findings were recorded, nor how often. -/
theorem ofFindings_congr {fs gs : List Finding} (same : ∀ f, f ∈ fs ↔ f ∈ gs) :
    ofFindings fs = ofFindings gs := by
  refine ext_get? fun p => ?_
  cases heldF : (ofFindings fs).get? p with
  | none =>
    have absent := (get?_ofFindings_eq_none_iff fs p).mp heldF
    exact ((get?_ofFindings_eq_none_iff gs p).mpr fun v mem => absent v ((same _).mpr mem)).symm
  | some v =>
    obtain ⟨foundV, leastV⟩ := get?_ofFindings_least heldF
    cases heldG : (ofFindings gs).get? p with
    | none => exact absurd ((same _).mp foundV) ((get?_ofFindings_eq_none_iff gs p).mp heldG v)
    | some w =>
      obtain ⟨foundW, leastW⟩ := get?_ofFindings_least heldG
      have before := leastV w ((same _).mpr foundW)
      have after := leastW v ((same _).mp foundV)
      rw [Violation.message_injective (le_antisymm before after)]

theorem insertAll_ofFindings (fs gs : List Finding) :
    (ofFindings fs).insertAll gs = ofFindings (fs ++ gs) := (List.foldl_append ..).symm

end Report

namespace Manifest

/-- The same is found in any order of the commands. -/
theorem mem_findingsAfter_perm {cs ds : List Command} (perm : cs.Perm ds) (f : Finding) :
    f ∈ findingsAfter [] cs ↔ f ∈ findingsAfter [] ds := by
  obtain ⟨p, v⟩ := f
  by_cases atId : ∃ id, p = .command id .id
  · obtain ⟨id, rfl⟩ := atId
    rw [id_place_mem_findingsAfter, id_place_mem_findingsAfter, (perm.map (·.id)).count_eq]
  · have other : ∀ id, p ≠ .command id .id := fun id same => atId ⟨id, same⟩
    simp only [mem_findingsAfter_of_ne other, perm.mem_iff]

theorem validate_reordered {m : Manifest} {cs : List Command} (perm : m.commands.Perm cs) :
    m.validate = { m with commands := cs }.validate :=
  Report.ofFindings_congr (mem_findingsAfter_perm perm)

end Manifest

namespace Registry

theorem review_eq_ofFindings (r : Registry) (m : Manifest) :
    r.review m = Report.ofFindings (Manifest.findingsAfter [] m.commands ++ r.ownershipFindings m) :=
  Report.insertAll_ofFindings _ _

section

variable {m : Manifest} {cs : List Command} (perm : m.commands.Perm cs)
include perm

theorem ownershipFindings_reordered (r : Registry) (f : Finding) :
    f ∈ r.ownershipFindings m ↔ f ∈ r.ownershipFindings { m with commands := cs } :=
  (perm.filterMap _).mem_iff

theorem review_reordered (r : Registry) : r.review m = r.review { m with commands := cs } := by
  rw [review_eq_ofFindings, review_eq_ofFindings]
  refine Report.ofFindings_congr fun f => ?_
  rw [List.mem_append, List.mem_append, Manifest.mem_findingsAfter_perm perm,
    ownershipFindings_reordered perm]

end

/-- The report on a manifest is the same in any order of its commands. So is the verdict of a registry, at
whatever time it is asked, and what it says in a refusal. -/
theorem publish_of_reordered {m : Manifest} {cs : List Command} (perm : m.commands.Perm cs) :
    let n := { m with commands := cs }
    m.validate = n.validate ∧
    ∀ (r : Registry) (stamp later : String),
      ((∃ next stored, r.publish stamp m = .ok (next, stored)) ↔
        ∃ next stored, r.publish later n = .ok (next, stored)) ∧
      ∀ refusal, r.publish stamp m = .error refusal ↔ r.publish later n = .error refusal := by
  intro n
  refine ⟨Manifest.validate_reordered perm, fun r stamp later => ?_⟩
  have review : r.review m = r.review n := review_reordered perm r
  rw [publish_eq, publish_eq, ← review]
  by_cases accepted : (r.review m).isEmpty = true
  · rw [if_pos accepted, if_pos accepted]
    exact ⟨⟨fun _ => ⟨_, _, rfl⟩, fun _ => ⟨_, _, rfl⟩⟩, fun _ => ⟨nofun, nofun⟩⟩
  · rw [if_neg accepted, if_neg accepted]
    refine ⟨⟨?_, ?_⟩, fun _ => Iff.rfl⟩ <;> rintro ⟨_, _, impossible⟩ <;> cases impossible

/-- Three commands have an id of another namespace, and two of them break different rules by their name. -/
theorem repeated_ids_reordered :
    let c (name : String) : Command :=
      { name := name, id := "billing-service:invoice-generate", description := "", sourceFile := "",
        sourceRange? := none, language := "go", entrypoint := "", runtime := "go:1", arguments := [],
        returns := "text", isAsync := false, confidence := Binary64.one, examples := [] }
    let m : Manifest := { Manifest.scaffold "0" with commands := [c "Fetch", c "fetch", c " "] }
    let n : Manifest := { m with commands := [c " ", c "Fetch", c "fetch"] }
    m.commands.Perm n.commands ∧ m.validate = n.validate ∧
    ∃ refusal, (seeded "0").publish "1" m = .error refusal ∧
      (seeded "0").publish "2" n = .error refusal := by
  intro c m n
  have perm : m.commands.Perm n.commands := by decide
  obtain ⟨validate, verdict⟩ := publish_of_reordered perm
  have refused : (seeded "0").publish "1" m = .error ⟨m.namespaceName, (seeded "0").review m⟩ := by
    rw [publish_eq, if_neg]
    rw [review, Report.isEmpty_insertAll]
    exact fun accepted => absurd accepted.1 (by decide)
  exact ⟨perm, validate, _, refused, ((verdict (seeded "0") "1" "2").2 _).mp refused⟩

end Registry

end CommandDeck
