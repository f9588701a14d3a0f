import CommandDeck.Proofs.Registry.Coherence

/-!
# The verdict on an offer

A manifest is published exactly when it breaks no rule and none of its ids is published under
another namespace. A refusal changes nothing, and its report is the report on the manifest itself but
for the ids: an id of another namespace is reported with that namespace, also where the manifest
repeats the id.
-/

namespace CommandDeck

namespace Violation

theorem message_idTaken (owner : String) :
    (idTaken owner).message = "Command id already published by namespace '" ++ owner ++ "'" := rfl

theorem message_idRepeated :
    idRepeated.message = "Command id must be unique within the manifest" := rfl

/-- The texts part at the letter after the words that they begin with. -/
theorem message_idTaken_lt_idRepeated (owner : String) :
    (idTaken owner).message < idRepeated.message := by
  have taken : "Command id already published by namespace '".toList =
      "Command id ".toList ++ 'a' :: "lready published by namespace '".toList := by decide
  have repeated : "Command id must be unique within the manifest".toList =
      "Command id ".toList ++ 'm' :: "ust be unique within the manifest".toList := by decide
  rw [message_idTaken, message_idRepeated, String.lt_iff, String.toList_append,
    String.toList_append, taken, repeated, List.append_assoc, List.append_assoc]
  apply List.append_left_lt
  rw [List.cons_append]
  exact List.cons_lt_cons_iff.mpr (Or.inl (by decide))

end Violation

namespace Registry

/-- The namespace, other than that of `m`, under which a command with the id is published. -/
def rival? (r : Registry) (m : Manifest) (id : String) : Option String :=
  (r.manifests.find? fun k => k.namespaceName != m.namespaceName && k.ids.contains id).map
    (·.namespaceName)

/-- What the refusal of a manifest says about a place. -/
def refusalMessage? (r : Registry) (m : Manifest) : Place → Option String
  | .command id .id =>
    match r.rival? m id with
    | some n =>
      if id ∈ m.ids then some ("Command id already published by namespace '" ++ n ++ "'") else none
    | none =>
      if 2 ≤ m.ids.count id then some "Command id must be unique within the manifest" else none
  | p => (m.validate.get? p).map Violation.message

theorem mem_ownershipFindings {r : Registry} {m : Manifest} {p : Place} {v : Violation} :
    (p, v) ∈ r.ownershipFindings m ↔ ∃ id ∈ m.ids, ∃ n, r.owner[id]? = some n ∧
      n ≠ m.namespaceName ∧ p = .command id .id ∧ v = .idTaken n := by
  simp only [ownershipFindings, List.mem_filterMap, Manifest.ids, List.mem_map]
  constructor
  · rintro ⟨c, hc, found⟩
    split at found
    · rename_i n held
      split at found
      · cases found
      · rename_i other
        cases found
        exact ⟨c.id, ⟨c, hc, rfl⟩, n, held, other, rfl, rfl⟩
    · cases found
  · rintro ⟨_, ⟨c, hc, rfl⟩, n, held, other, rfl, rfl⟩
    exact ⟨c, hc, by simp only [held, if_neg other]⟩

theorem Coherent.rival?_eq_some_iff {r : Registry} (h : r.Coherent) (m : Manifest)
    (id n : String) :
    r.rival? m id = some n ↔ r.owner[id]? = some n ∧ n ≠ m.namespaceName := by
  rw [h.owner_iff, rival?, Option.map_eq_some_iff]
  constructor
  · rintro ⟨k, found, rfl⟩
    have wanted := List.find?_some found
    simp only [Bool.and_eq_true, bne_iff_ne, List.contains_iff_mem] at wanted
    exact ⟨⟨k, List.mem_of_find?_eq_some found, rfl, wanted.2⟩, wanted.1⟩
  · rintro ⟨⟨k, hk, rfl, hid⟩, other⟩
    cases found : r.manifests.find? fun k =>
        k.namespaceName != m.namespaceName && k.ids.contains id with
    | none => exact absurd (List.find?_eq_none.mp found k hk) (by simp [other, hid])
    | some j =>
      have wanted := List.find?_some found
      simp only [Bool.and_eq_true, bne_iff_ne, List.contains_iff_mem] at wanted
      exact ⟨j, rfl, h.owner_unique ⟨j, List.mem_of_find?_eq_some found, rfl, wanted.2⟩
        ⟨k, hk, rfl, hid⟩⟩

/-- An id of another namespace is reported as taken, whatever the manifest itself does with it. -/
theorem review_get?_taken {r : Registry} {m : Manifest} {id n : String} (mine : id ∈ m.ids)
    (held : r.owner[id]? = some n) (other : n ≠ m.namespaceName) :
    (r.review m).get? (.command id .id) = some (.idTaken n) := by
  have found : (Place.command id .id, Violation.idTaken n) ∈ r.ownershipFindings m :=
    mem_ownershipFindings.mpr ⟨id, mine, n, held, other, rfl, rfl⟩
  rw [review, Report.get?_insertAll_of_unique _ found, Manifest.validate_get?_id]
  · split
    · exact congrArg some (Violation.first_of_lt (Violation.message_idTaken_lt_idRepeated n))
    · rfl
  · intro w hw
    obtain ⟨j, _, k, owned, _, place, rfl⟩ := mem_ownershipFindings.mp hw
    cases place
    rw [held] at owned
    cases owned
    rfl

/-- Away from the ids that are taken the review is the report on the manifest. -/
theorem review_get?_of_free {r : Registry} {m : Manifest} {p : Place}
    (free : ∀ id ∈ m.ids, ∀ n, p = .command id .id → r.owner[id]? = some n →
      n = m.namespaceName) :
    (r.review m).get? p = m.validate.get? p := by
  refine Report.get?_insertAll_of_absent _ fun v hv => ?_
  obtain ⟨id, mine, n, held, other, place, _⟩ := mem_ownershipFindings.mp hv
  exact other (free id mine n place held)

theorem Coherent.review_message {r : Registry} (h : r.Coherent) (m : Manifest) (p : Place) :
    ((r.review m).get? p).map Violation.message = r.refusalMessage? m p := by
  by_cases atId : ∃ id, p = .command id .id
  · obtain ⟨id, rfl⟩ := atId
    have rival := h.rival?_eq_some_iff m id
    by_cases taken : id ∈ m.ids ∧ ∃ n, r.rival? m id = some n
    · obtain ⟨mine, n, found⟩ := taken
      obtain ⟨held, other⟩ := (rival n).mp found
      rw [review_get?_taken mine held other]
      rw [refusalMessage?, found, Option.map_some, Violation.message_idTaken]
      exact (if_pos mine).symm
    · have free : ∀ j ∈ m.ids, ∀ n, Place.command id .id = .command j .id →
          r.owner[j]? = some n → n = m.namespaceName := by
        intro j mine n place held
        cases place
        by_contra other
        exact taken ⟨mine, n, (rival n).mpr ⟨held, other⟩⟩
      rw [review_get?_of_free free, Manifest.validate_get?_id]
      rw [refusalMessage?]
      cases found : r.rival? m id with
      | some n =>
        have absent : id ∉ m.ids := fun mine => taken ⟨mine, n, found⟩
        simp [absent, List.count_eq_zero_of_not_mem absent]
      | none => split <;> rfl
  · have free : ∀ id ∈ m.ids, ∀ n, p = .command id .id → r.owner[id]? = some n →
        n = m.namespaceName := fun id _ _ place _ => absurd ⟨id, place⟩ atId
    rw [review_get?_of_free free]
    unfold refusalMessage?
    split
    · rename_i id
      exact absurd ⟨id, rfl⟩ atId
    · rfl

/-- An offer is accepted exactly when the manifest breaks no rule and no other namespace publishes one
of its ids. A refusal leaves the registry as it was and says at each place what is wrong there. -/
theorem publish_verdict {r : Registry} (h : r.Reachable) (stamp : String) (m : Manifest) :
    ((∃ next stored, r.publish stamp m = .ok (next, stored)) ↔
      m.validate = Report.empty ∧
        ∀ k ∈ r.manifests, k.namespaceName ≠ m.namespaceName → ∀ c ∈ m.commands, c.id ∉ k.ids) ∧
    ∀ refusal, r.publish stamp m = .error refusal →
      r.after ⟨stamp, m⟩ = r ∧ refusal.namespaceName = m.namespaceName ∧
        ∀ p, (refusal.report.get? p).map Violation.message = r.refusalMessage? m p := by
  have coherent := h.coherent
  rw [← coherent.accepts_iff m, after_eq, publish_eq]
  by_cases accepted : (r.review m).isEmpty = true
  · rw [if_pos accepted, if_pos accepted]
    exact ⟨⟨fun _ => accepted, fun _ => ⟨_, _, rfl⟩⟩, fun _ refused => nomatch refused⟩
  · rw [if_neg accepted, if_neg accepted]
    refine ⟨⟨?_, fun k => absurd k accepted⟩, ?_⟩
    · rintro ⟨_, _, impossible⟩
      cases impossible
    intro refusal refused
    cases refused
    exact ⟨rfl, rfl, coherent.review_message m⟩

/-- The commands of the demo manifest cannot be published under another namespace, and least of all
twice. -/
theorem demo_id_refused_under_other :
    let c := (Manifest.demo "1").commands
    let other : Manifest := { Manifest.demo "1" with namespaceName := "other", commands := c ++ c }
    ∃ refusal, (seeded "0").publish "1" other = .error refusal ∧
      (seeded "0").after ⟨"1", other⟩ = seeded "0" ∧
      (refusal.report.get? (.command "billing-service:invoice-generate" .id)).map
        Violation.message =
          some "Command id already published by namespace 'billing-service'" := by
  intro c other
  obtain ⟨accepted, refused⟩ := publish_verdict (r := seeded "0") ⟨_, [], .seeded "0", rfl⟩ "1" other
  cases outcome : (seeded "0").publish "1" other with
  | ok result =>
    have valid := (accepted.mp ⟨_, _, outcome⟩).1
    exact absurd valid (by decide)
  | error refusal =>
    obtain ⟨kept, _, messages⟩ := refused refusal outcome
    refine ⟨refusal, rfl, kept, (messages _).trans ?_⟩
    simp only [refusalMessage?, rival?, seeded_manifests]
    decide

end Registry

end CommandDeck
