import CommandDeck.Proofs.Manifest.Lookup
import CommandDeck.Proofs.Registry.Verdict

/-!
# Namespaces do not disturb each other

An offer for one namespace leaves the manifests of all others alone, and the ids of their commands
still name these commands. An id changes hands in one way only: the namespace that owns it publishes a
manifest without it, and another takes it later.
-/

namespace CommandDeck

namespace Registry

variable {r : Registry}

theorem publish_of_accepted {o : Offer} (accepted : (r.review o.manifest).isEmpty = true) :
    r.publish o.stamp o.manifest = .ok (r.store o.stamped, o.stamped) := by
  rw [publish_eq, if_pos accepted]
  rfl

/-- An offer is refused and changes nothing, or it is admitted and stored. -/
theorem Coherent.after_cases (h : r.Coherent) (o : Offer) :
    r.after o = r ∨
    ((∃ next stored, r.publish o.stamp o.manifest = .ok (next, stored)) ∧
      r.Admits o.manifest ∧ r.after o = r.store o.stamped) := by
  by_cases accepted : (r.review o.manifest).isEmpty = true
  · right
    obtain ⟨_, owned⟩ := (review_isEmpty_iff r o.manifest).mp accepted
    exact ⟨⟨_, _, publish_of_accepted accepted⟩, (h.admits_iff o.manifest).mpr owned,
      after_of_accepted accepted⟩
  · left
    rw [after_eq, if_neg accepted]

/-- A store leaves the manifests of other namespaces where they are. -/
theorem Coherent.mem_store (h : r.Coherent) {m k : Manifest} (hk : k ∈ r.manifests)
    (other : m.namespaceName ≠ k.namespaceName) : k ∈ (r.store m).manifests := by
  obtain ⟨front, old, back, s⟩ := h.store_splits m
  have hold : k ∉ old := fun hk => other (s.replaced k hk).symm
  rw [s.was] at hk
  rw [s.mem_iff]
  simp only [List.mem_append, hold, false_or] at hk
  exact Or.inr (List.mem_append.mpr hk)

theorem Coherent.mem_run (h : r.Coherent) {k : Manifest} (hk : k ∈ r.manifests)
    {offers : List Offer} (others : ∀ o ∈ offers, o.manifest.namespaceName ≠ k.namespaceName) :
    k ∈ (r.run offers).manifests := by
  induction offers generalizing r with
  | nil => exact hk
  | cons o rest ih =>
    obtain ⟨other, others⟩ := List.forall_mem_cons.mp others
    refine ih (h.after o) ?_ others
    rcases h.after_cases o with same | ⟨_, _, stored⟩
    · rwa [same]
    · rw [stored]
      exact h.mem_store hk other

/-- In a coherent registry the id of a published command names that command. -/
theorem Coherent.lookup?_id (h : r.Coherent) {m : Manifest} {c : Command} (hm : m ∈ r.manifests)
    (hc : c ∈ m.commands) : r.lookup? c.id = some ⟨m, c⟩ := by
  refine resolve?_of_unique_id hm hc ?_
  intro k hk d hd same
  have owned : r.Owns m.namespaceName c.id := ⟨m, hm, rfl, List.mem_map_of_mem hc⟩
  have taken : r.Owns k.namespaceName c.id := ⟨k, hk, rfl, same ▸ List.mem_map_of_mem hd⟩
  obtain rfl : k = m :=
    List.inj_on_of_nodup_map h.namespaces_nodup hk hm (h.owner_unique taken owned)
  have distinct := Manifest.ids_nodup_of_validate (h.deployable k hk)
  exact ⟨rfl, List.inj_on_of_nodup_map distinct hd hc same⟩

/-- A store gives the ids of the manifest to its namespace, and frees those that the namespace had
before. -/
theorem Coherent.owner_store (h : r.Coherent) (m : Manifest) (id : String) :
    (r.store m).owner[id]? =
      if id ∈ m.ids then some m.namespaceName
      else if r.owner[id]? = some m.namespaceName then none else r.owner[id]? := by
  obtain ⟨front, old, back, s⟩ := h.store_splits m
  have released : id ∈ old.flatMap Manifest.ids ↔ r.owner[id]? = some m.namespaceName := by
    rw [h.owner_iff, List.mem_flatMap]
    constructor
    · rintro ⟨p, hp, hid⟩
      exact ⟨p, by simp [s.was, hp], s.replaced p hp, hid⟩
    · rintro ⟨p, hp, named, hid⟩
      have kept : p ∉ front ++ back := fun hp => s.others p hp named
      rw [s.was] at hp
      simp only [List.mem_append] at hp kept
      exact ⟨p, by tauto, hid⟩
  rw [s.owner id]
  simp only [released]

/-- The owner of an id stays, unless its namespace publishes a manifest without the id. -/
theorem Coherent.owner_after (h : r.Coherent) {id n : String} (owned : r.owner[id]? = some n)
    (o : Offer) :
    (r.after o).owner[id]? = some n ∨
    ((∃ next stored, r.publish o.stamp o.manifest = .ok (next, stored)) ∧
      o.manifest.namespaceName = n ∧ id ∉ o.manifest.ids) := by
  rcases h.after_cases o with same | ⟨accepted, admitted, stored⟩
  · left
    rwa [same]
  · rw [stored, h.owner_store, owned]
    by_cases mine : id ∈ o.manifest.ids
    · left
      obtain rfl := admitted id mine n ((h.owner_iff id n).mp owned)
      exact if_pos mine
    · rw [if_neg (show id ∉ o.stamped.ids from mine)]
      by_cases own : o.manifest.namespaceName = n
      · exact Or.inr ⟨accepted, own, mine⟩
      · left
        exact if_neg fun same => own (Option.some.inj same).symm

/-- An id that has lost its owner in a run was given up by that owner. -/
theorem Coherent.exists_release (h : r.Coherent) {id n : String} (owned : r.owner[id]? = some n)
    {offers : List Offer} (lost : (r.run offers).owner[id]? ≠ some n) :
    ∃ before o later, offers = before ++ o :: later ∧
      (∃ next stored, (r.run before).publish o.stamp o.manifest = .ok (next, stored)) ∧
      o.manifest.namespaceName = n ∧ id ∉ o.manifest.ids := by
  induction offers generalizing r with
  | nil => exact absurd owned lost
  | cons o rest ih =>
    rcases h.owner_after owned o with kept | ⟨accepted, named, absent⟩
    · obtain ⟨before, x, later, rfl, release⟩ := ih (h.after o) kept lost
      exact ⟨o :: before, x, later, rfl, release⟩
    · exact ⟨[], o, rest, rfl, accepted, named, absent⟩

/-- Offers for other namespaces leave a namespace its manifest, and the ids of its commands still name
them. An id that comes to another namespace was given up by its owner first. -/
theorem namespaces_isolated (h : r.Reachable) (n : String) (offers : List Offer) :
    (∀ m, r.get? n = some m → (∀ o ∈ offers, o.manifest.namespaceName ≠ n) →
      (r.run offers).get? n = some m ∧
      ∀ c ∈ m.commands, (r.run offers).lookup? c.id = some ⟨m, c⟩) ∧
    ∀ id k, r.owner[id]? = some n → (r.run offers).owner[id]? = some k → k ≠ n →
      ∃ before o later, offers = before ++ o :: later ∧
        (∃ next stored, (r.run before).publish o.stamp o.manifest = .ok (next, stored)) ∧
        o.manifest.namespaceName = n ∧ ∀ c ∈ o.manifest.commands, c.id ≠ id := by
  have coherent := h.coherent
  constructor
  · intro m published others
    obtain ⟨hm, rfl⟩ := (coherent.get?_eq_some_iff n m).mp published
    have kept := coherent.mem_run hm others
    have coherent := coherent.run offers
    exact ⟨(coherent.get?_eq_some_iff _ m).mpr ⟨kept, rfl⟩,
      fun c hc => coherent.lookup?_id kept hc⟩
  · intro id k owned taken other
    have lost : (r.run offers).owner[id]? ≠ some n := by
      rw [taken]
      exact fun same => other (Option.some.inj same)
    obtain ⟨before, o, later, parts, accepted, named, absent⟩ :=
      coherent.exists_release owned lost
    refine ⟨before, o, later, parts, accepted, named, ?_⟩
    intro c hc same
    exact absent (same ▸ List.mem_map_of_mem hc)

/-- The demo namespace gives up its command, and another takes the id. -/
theorem demo_id_handed_over :
    let demo := Manifest.demo "0"
    let offers : List Offer :=
      [⟨"1", { demo with commands := [] }⟩, ⟨"2", { demo with namespaceName := "other" }⟩]
    (seeded "0").owner["billing-service:invoice-generate"]? = some "billing-service" ∧
    ((seeded "0").run offers).owner["billing-service:invoice-generate"]? = some "other" := by
  intro demo offers
  let first : Offer := ⟨"1", { demo with commands := [] }⟩
  let second : Offer := ⟨"2", { demo with namespaceName := "other" }⟩
  let id := "billing-service:invoice-generate"
  have coherent := (Initial.seeded "0").coherent
  have owned : (seeded "0").owner[id]? = some "billing-service" := by
    rw [coherent.owner_iff]
    exact ⟨demo, by simp [seeded_manifests, demo], rfl, by decide⟩
  have given : ((seeded "0").review first.manifest).isEmpty = true :=
    (review_isEmpty_iff _ _).mpr ⟨by decide, fun i mine => absurd mine List.not_mem_nil⟩
  have free : ((seeded "0").after first).owner[id]? = none := by
    rw [after_of_accepted given, coherent.owner_store, owned]
    rfl
  have taken : (((seeded "0").after first).review second.manifest).isEmpty = true := by
    refine (review_isEmpty_iff _ _).mpr ⟨by decide, fun i mine n held => ?_⟩
    obtain rfl : i = id := List.mem_singleton.mp mine
    rw [free] at held
    cases held
  have mine : id ∈ second.stamped.ids := by decide
  refine ⟨owned, ?_⟩
  change (((seeded "0").after first).after second).owner[id]? = some "other"
  rw [after_of_accepted taken, (coherent.after first).owner_store, if_pos mine]
  rfl

/-- Neither a command with the name of the demo command for its id nor one with the same id takes
anything from the demo manifest. Where the id goes to another namespace, there was an offer without
it. -/
theorem demo_isolated_from_others :
    let demo := Manifest.demo "0"
    let id := "billing-service:invoice-generate"
    let renamed := demo.commands.map fun c => { c with id := c.name }
    let offers : List Offer := [
      ⟨"1", { demo with namespaceName := "other", commands := renamed }⟩,
      ⟨"2", { demo with namespaceName := "intruder" }⟩]
    let handover : List Offer := [
      ⟨"1", { demo with commands := [] }⟩,
      ⟨"2", { demo with namespaceName := "other" }⟩]
    ((seeded "0").get? "billing-service" = some demo ∧
      (∀ o ∈ offers, o.manifest.namespaceName ≠ "billing-service") ∧
      ((seeded "0").run offers).get? "billing-service" = some demo ∧
      ∀ c ∈ demo.commands, ((seeded "0").run offers).lookup? c.id = some ⟨demo, c⟩) ∧
    (seeded "0").owner[id]? = some "billing-service" ∧
    ((seeded "0").run handover).owner[id]? = some "other" ∧
    ∃ before o later, handover = before ++ o :: later ∧
      (∃ next stored, ((seeded "0").run before).publish o.stamp o.manifest = .ok (next, stored)) ∧
      o.manifest.namespaceName = "billing-service" ∧ ∀ c ∈ o.manifest.commands, c.id ≠ id := by
  intro demo id renamed offers handover
  have reachable : (seeded "0").Reachable := ⟨_, [], .seeded "0", rfl⟩
  have published : (seeded "0").get? "billing-service" = some demo := by
    rw [reachable.coherent.get?_eq_some_iff, seeded_manifests]
    exact ⟨List.mem_singleton_self demo, rfl⟩
  have others : ∀ o ∈ offers, o.manifest.namespaceName ≠ "billing-service" := by
    simp [offers]
  obtain ⟨owned, taken⟩ := demo_id_handed_over
  exact ⟨⟨published, others,
      (namespaces_isolated reachable "billing-service" offers).1 demo published others⟩,
    owned, taken,
    (namespaces_isolated reachable "billing-service" handover).2 id "other" owned taken
      (by decide)⟩

end Registry

end CommandDeck
