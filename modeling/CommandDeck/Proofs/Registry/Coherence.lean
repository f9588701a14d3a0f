import Mathlib.Data.List.Flatten
import Mathlib.Data.List.Nodup
import CommandDeck.Registry
import CommandDeck.Proofs.Manifest.Findings

/-!
# Coherence of a registry

A registry keeps three things in step: the manifests in their order, the table of positions and the
table of owners. `Coherent` says how the tables follow from the manifests, that no id comes twice in
all of them, and that each of them may be published. Every registry that a program can reach from an
empty or a seeded one by offering manifests is coherent, whether the offers are accepted or refused.

What a store does is said once, by `Splits`: the manifests fall into those before the place of the new
one, the one that it replaces, if there is one, and those after.
-/

namespace CommandDeck

/-- A manifest offered for publishing, and the stamp that it gets. -/
structure Offer where
  stamp : String
  manifest : Manifest

/-- The manifest as it is stored when the offer is accepted. -/
def Offer.stamped (o : Offer) : Manifest := { o.manifest with generatedAt := o.stamp }

namespace Registry

/-- The registry after an offer, which is the one before it where the offer is refused. -/
def after (r : Registry) (o : Offer) : Registry :=
  match r.publish o.stamp o.manifest with
  | .ok (next, _) => next
  | .error _ => r

def run (r : Registry) : List Offer → Registry
  | [] => r
  | o :: rest => run (r.after o) rest

/-- The registries from which programs start. -/
inductive Initial : Registry → Prop where
  | empty : Initial Registry.empty
  | seeded (stamp : String) : Initial (Registry.seeded stamp)

def Reachable (r : Registry) : Prop :=
  ∃ first offers, Initial first ∧ r = first.run offers

/-- A manifest published under the namespace `n` has a command with the id `id`. -/
def Owns (r : Registry) (n id : String) : Prop :=
  ∃ m ∈ r.manifests, m.namespaceName = n ∧ id ∈ m.ids

/-- Both tables say what the manifests say, no namespace and no id comes twice, and every manifest
may be published. -/
structure Coherent (r : Registry) : Prop where
  namespaces_nodup : (r.manifests.map (·.namespaceName)).Nodup
  position_iff : ∀ n i,
    r.position[n]? = some i ↔ ∃ m : Manifest, r.manifests[i]? = some m ∧ m.namespaceName = n
  owner_iff : ∀ id n, r.owner[id]? = some n ↔ r.Owns n id
  ids_nodup : (r.manifests.flatMap Manifest.ids).Nodup
  deployable : ∀ m ∈ r.manifests, m.validate.isEmpty = true

/-- No other namespace owns an id of the manifest. -/
def Admits (r : Registry) (m : Manifest) : Prop :=
  ∀ id ∈ m.ids, ∀ n, r.Owns n id → n = m.namespaceName

theorem getElem?_releaseOwners (owner : Std.HashMap String String) (m : Manifest) (id : String) :
    (releaseOwners owner m)[id]? = if id ∈ m.ids then none else owner[id]? := by
  unfold releaseOwners Manifest.ids
  induction m.commands generalizing owner with
  | nil => simp
  | cons c rest ih =>
    rw [List.foldl_cons, ih, Std.HashMap.getElem?_erase]
    by_cases same : c.id = id
    · simp [same]
    · simp [same, Ne.symm same]

theorem getElem?_claimOwners (owner : Std.HashMap String String) (m : Manifest) (id : String) :
    (claimOwners owner m)[id]? = if id ∈ m.ids then some m.namespaceName else owner[id]? := by
  unfold claimOwners Manifest.ids
  induction m.commands generalizing owner with
  | nil => simp
  | cons c rest ih =>
    rw [List.foldl_cons, ih, Std.HashMap.getElem?_insert]
    by_cases same : c.id = id
    · simp [same]
    · simp [same, Ne.symm same]

theorem store_append {r : Registry} {m : Manifest} (fresh : r.position[m.namespaceName]? = none) :
    r.store m = ⟨r.manifests ++ [m], r.position.insert m.namespaceName r.manifests.length,
      claimOwners r.owner m⟩ := by
  simp only [store, fresh]

theorem store_replace {r : Registry} {m previous : Manifest} {i : Nat}
    (known : r.position[m.namespaceName]? = some i) (held : r.manifests[i]? = some previous) :
    r.store m = ⟨r.manifests.set i m, r.position,
      claimOwners (releaseOwners r.owner previous) m⟩ := by
  simp only [store, known, held]

theorem exists_split_set {α : Type} {l : List α} {i : Nat} {old : α} (held : l[i]? = some old)
    (new : α) :
    ∃ front back, l = front ++ old :: back ∧ l.set i new = front ++ new :: back := by
  obtain ⟨hi, rfl⟩ := List.getElem?_eq_some_iff.mp held
  refine ⟨l.take i, l.drop (i + 1), ?_, ?_⟩
  · rw [← List.drop_eq_getElem_cons, List.take_append_drop]
  · rw [List.set_eq_take_append_cons_drop, if_pos hi]

/-- What a store of `m` does to the manifests and the owners: those in `old`, of the same namespace,
make place for `m` between `front` and `back`, and their ids are free again. -/
structure Splits (r : Registry) (m : Manifest) (front old back : List Manifest) : Prop where
  was : r.manifests = front ++ (old ++ back)
  becomes : (r.store m).manifests = front ++ m :: back
  replaced : ∀ k ∈ old, k.namespaceName = m.namespaceName
  others : ∀ k ∈ front ++ back, k.namespaceName ≠ m.namespaceName
  owner : ∀ id, (r.store m).owner[id]? =
    if id ∈ m.ids then some m.namespaceName
    else if id ∈ old.flatMap Manifest.ids then none else r.owner[id]?

namespace Splits

variable {r : Registry} {m : Manifest} {front old back : List Manifest}

theorem kept (s : r.Splits m front old back) : (front ++ back).Sublist r.manifests := by
  rw [s.was]
  exact (List.sublist_append_right old back).append_left front

theorem mem_iff (s : r.Splits m front old back) {k : Manifest} :
    k ∈ (r.store m).manifests ↔ k = m ∨ k ∈ front ++ back := by
  rw [s.becomes, List.perm_middle.mem_iff, List.mem_cons]

/-- An id of an admitted manifest stands in no manifest of another namespace. -/
theorem not_mem_ids (s : r.Splits m front old back) (admitted : r.Admits m) {k : Manifest}
    (hk : k ∈ front ++ back) {id : String} (hid : id ∈ k.ids) : id ∉ m.ids := by
  intro mine
  exact s.others k hk (admitted id mine _ ⟨k, s.kept.subset hk, rfl, hid⟩)

end Splits

namespace Coherent

variable {r : Registry}

theorem position_eq_none_iff (h : r.Coherent) (n : String) :
    r.position[n]? = none ↔ ∀ m ∈ r.manifests, m.namespaceName ≠ n := by
  constructor
  · intro absent m hm same
    obtain ⟨i, hi⟩ := List.mem_iff_getElem?.mp hm
    have known := (h.position_iff n i).mpr ⟨m, hi, same⟩
    rw [absent] at known
    cases known
  · intro absent
    cases known : r.position[n]? with
    | none => rfl
    | some i =>
      obtain ⟨m, hi, same⟩ := (h.position_iff n i).mp known
      exact absurd same (absent m (List.mem_of_getElem? hi))

/-- An id has one owner. -/
theorem owner_unique (h : r.Coherent) {id n k : String} (hn : r.Owns n id) (hk : r.Owns k id) :
    n = k := by
  have held := (h.owner_iff id n).mpr hn
  rw [(h.owner_iff id k).mpr hk] at held
  exact (Option.some.inj held).symm

theorem get?_eq_some_iff (h : r.Coherent) (n : String) (m : Manifest) :
    r.get? n = some m ↔ m ∈ r.manifests ∧ m.namespaceName = n := by
  rw [get?, Option.bind_eq_some_iff]
  constructor
  · rintro ⟨i, known, held⟩
    obtain ⟨k, here, named⟩ := (h.position_iff n i).mp known
    cases held.symm.trans here
    exact ⟨List.mem_of_getElem? held, named⟩
  · rintro ⟨hm, named⟩
    obtain ⟨i, held⟩ := List.mem_iff_getElem?.mp hm
    exact ⟨i, (h.position_iff n i).mpr ⟨m, held, named⟩, held⟩

/-- A store finds the place of the new manifest: where the one of its namespace stands, or behind all
others. -/
theorem store_splits (h : r.Coherent) (m : Manifest) :
    ∃ front old back, r.Splits m front old back := by
  cases known : r.position[m.namespaceName]? with
  | none =>
    refine ⟨r.manifests, [], [], by simp, by rw [store_append known], by simp, ?_, ?_⟩
    · simpa using (h.position_eq_none_iff _).mp known
    · intro id
      rw [store_append known]
      simp [getElem?_claimOwners]
  | some i =>
    obtain ⟨previous, held, same⟩ := (h.position_iff _ i).mp known
    obtain ⟨front, back, was, becomes⟩ := exists_split_set held m
    refine ⟨front, [previous], back, was, ?_, by simpa using same, ?_, ?_⟩
    · rw [store_replace known held, becomes]
    · have nodup := h.namespaces_nodup
      rw [was, (List.perm_middle.map _).nodup_iff, List.map_cons, List.nodup_cons] at nodup
      intro k hk equal
      exact nodup.1 (List.mem_map.mpr ⟨k, hk, equal.trans same.symm⟩)
    · intro id
      rw [store_replace known held]
      simp [getElem?_claimOwners, getElem?_releaseOwners]

theorem store_position (h : r.Coherent) (m : Manifest) (n : String) (i : Nat) :
    (r.store m).position[n]? = some i ↔
      ∃ k : Manifest, (r.store m).manifests[i]? = some k ∧ k.namespaceName = n := by
  cases known : r.position[m.namespaceName]? with
  | none =>
    rw [store_append known]
    have absent := (h.position_eq_none_iff _).mp known
    rw [Std.HashMap.getElem?_insert]
    by_cases same : m.namespaceName = n
    · subst same
      simp only [beq_self_eq_true, if_true, Option.some.injEq]
      constructor
      · rintro rfl
        exact ⟨m, by simp, rfl⟩
      · rintro ⟨k, hk, same⟩
        by_cases inside : i < r.manifests.length
        · rw [List.getElem?_append_left inside] at hk
          exact absurd same (absent k (List.mem_of_getElem? hk))
        · have bound := (List.getElem?_eq_some_iff.mp hk).1
          simp only [List.length_append, List.length_singleton] at bound
          omega
    · simp only [beq_iff_eq, same, if_false]
      rw [h.position_iff]
      constructor
      · rintro ⟨k, hk, named⟩
        exact ⟨k, by rw [List.getElem?_append_left (List.getElem?_eq_some_iff.mp hk).1, hk], named⟩
      · rintro ⟨k, hk, named⟩
        by_cases inside : i < r.manifests.length
        · rw [List.getElem?_append_left inside] at hk
          exact ⟨k, hk, named⟩
        · rw [List.getElem?_append_right (by omega)] at hk
          have hm := List.mem_of_getElem? hk
          rw [List.mem_singleton] at hm
          exact absurd (hm ▸ named) same
  | some j =>
    obtain ⟨previous, held, same⟩ := (h.position_iff _ j).mp known
    have bound := (List.getElem?_eq_some_iff.mp held).1
    rw [store_replace known held, h.position_iff]
    simp only [List.getElem?_set]
    by_cases here : j = i
    · subst here
      rw [if_pos rfl, if_pos bound, held]
      simp [same]
    · rw [if_neg here]

theorem store_owner (h : r.Coherent) {m : Manifest} (admitted : r.Admits m) (id n : String) :
    (r.store m).owner[id]? = some n ↔ (r.store m).Owns n id := by
  obtain ⟨front, old, back, s⟩ := h.store_splits m
  rw [s.owner id]
  by_cases mine : id ∈ m.ids
  · rw [if_pos mine, Option.some.injEq]
    constructor
    · rintro rfl
      exact ⟨m, s.mem_iff.mpr (Or.inl rfl), rfl, mine⟩
    · rintro ⟨k, hk, rfl, hid⟩
      rcases s.mem_iff.mp hk with rfl | hk
      · rfl
      · exact absurd mine (s.not_mem_ids admitted hk hid)
  · rw [if_neg mine]
    by_cases released : id ∈ old.flatMap Manifest.ids
    · rw [if_pos released]
      obtain ⟨p, hp, hid⟩ := List.mem_flatMap.mp released
      constructor
      · intro impossible
        cases impossible
      · rintro ⟨k, hk, rfl, hk'⟩
        rcases s.mem_iff.mp hk with rfl | hk
        · exact absurd hk' mine
        · have hp' : p ∈ r.manifests := by simp [s.was, hp]
          have same := h.owner_unique ⟨k, s.kept.subset hk, rfl, hk'⟩ ⟨p, hp', rfl, hid⟩
          exact absurd (same.trans (s.replaced p hp)) (s.others k hk)
    · rw [if_neg released, h.owner_iff]
      constructor
      · rintro ⟨k, hk, named, hid⟩
        have hold : k ∉ old := fun hk => released (List.mem_flatMap.mpr ⟨k, hk, hid⟩)
        rw [s.was] at hk
        simp only [List.mem_append, hold, false_or] at hk
        exact ⟨k, s.mem_iff.mpr (Or.inr (List.mem_append.mpr hk)), named, hid⟩
      · rintro ⟨k, hk, named, hid⟩
        rcases s.mem_iff.mp hk with rfl | hk
        · exact absurd hid mine
        · exact ⟨k, s.kept.subset hk, named, hid⟩

theorem store (h : r.Coherent) {m : Manifest} (valid : m.validate.isEmpty = true)
    (admitted : r.Admits m) : (r.store m).Coherent := by
  obtain ⟨front, old, back, s⟩ := h.store_splits m
  refine ⟨?_, h.store_position m, h.store_owner admitted, ?_, ?_⟩
  · rw [s.becomes, (List.perm_middle.map _).nodup_iff, List.map_cons, List.nodup_cons]
    refine ⟨?_, (s.kept.map _).nodup h.namespaces_nodup⟩
    intro hm
    obtain ⟨k, hk, same⟩ := List.mem_map.mp hm
    exact s.others k hk same
  · rw [s.becomes, (List.perm_middle.flatMap_right _).nodup_iff, List.flatMap_cons,
      List.nodup_append']
    refine ⟨Manifest.ids_nodup_of_validate valid, (s.kept.flatMap _).nodup h.ids_nodup, ?_⟩
    intro id mine hid
    obtain ⟨k, hk, hid⟩ := List.mem_flatMap.mp hid
    exact s.not_mem_ids admitted hk hid mine
  · intro k hk
    rcases s.mem_iff.mp hk with rfl | hk
    · exact valid
    · exact h.deployable k (s.kept.subset hk)

end Coherent

/-- What is needed to store a manifest after it was offered. -/
theorem review_isEmpty_iff (r : Registry) (m : Manifest) :
    (r.review m).isEmpty = true ↔ m.validate.isEmpty = true ∧
      ∀ id ∈ m.ids, ∀ n, r.owner[id]? = some n → n = m.namespaceName := by
  rw [review, Report.isEmpty_insertAll]
  refine and_congr_right fun _ => ?_
  simp only [ownershipFindings, List.filterMap_eq_nil_iff, Manifest.ids, List.forall_mem_map]
  refine forall_congr' fun c => imp_congr_right fun _ => ?_
  cases r.owner[c.id]? with
  | none => simp
  | some n => by_cases same : n = m.namespaceName <;> simp [same]

/-- An offer is taken as it is, under its stamp, when the review has no findings. -/
theorem publish_eq (r : Registry) (stamp : String) (m : Manifest) :
    r.publish stamp m =
      if (r.review m).isEmpty then
        .ok (r.store { m with generatedAt := stamp }, { m with generatedAt := stamp })
      else .error ⟨m.namespaceName, r.review m⟩ := rfl

theorem after_eq (r : Registry) (o : Offer) :
    r.after o =
      if (r.review o.manifest).isEmpty then r.store { o.manifest with generatedAt := o.stamp }
      else r := by
  rw [after, publish_eq]
  by_cases accepted : (r.review o.manifest).isEmpty = true
  · rw [if_pos accepted, if_pos accepted]
  · rw [if_neg accepted, if_neg accepted]

theorem after_of_accepted {r : Registry} {o : Offer}
    (accepted : (r.review o.manifest).isEmpty = true) : r.after o = r.store o.stamped := by
  rw [after_eq, if_pos accepted]
  rfl

theorem after_of_refused {r : Registry} {o : Offer} {e : Rejection}
    (h : r.publish o.stamp o.manifest = .error e) : r.after o = r := by
  rw [after, h]

theorem run_append (r : Registry) (offers more : List Offer) :
    r.run (offers ++ more) = (r.run offers).run more := by
  induction offers generalizing r with
  | nil => rfl
  | cons o rest ih => exact ih (r.after o)

theorem Coherent.admits_iff {r : Registry} (h : r.Coherent) (m : Manifest) :
    r.Admits m ↔ ∀ id ∈ m.ids, ∀ n, r.owner[id]? = some n → n = m.namespaceName := by
  simp only [Admits, h.owner_iff]

theorem Coherent.accepts_iff {r : Registry} (h : r.Coherent) (m : Manifest) :
    (r.review m).isEmpty = true ↔ m.validate = Report.empty ∧
      ∀ k ∈ r.manifests, k.namespaceName ≠ m.namespaceName → ∀ c ∈ m.commands, c.id ∉ k.ids := by
  rw [review_isEmpty_iff, Report.isEmpty_iff_eq_empty, ← h.admits_iff]
  refine and_congr_right fun _ => ?_
  constructor
  · intro admitted k hk other c hc hid
    exact other (admitted c.id (List.mem_map.mpr ⟨c, hc, rfl⟩) _ ⟨k, hk, rfl, hid⟩)
  · rintro apart id mine _ ⟨k, hk, rfl, hid⟩
    obtain ⟨c, hc, rfl⟩ := List.mem_map.mp mine
    by_contra other
    exact apart k hk other c hc hid

theorem Coherent.after {r : Registry} (h : r.Coherent) (o : Offer) : (r.after o).Coherent := by
  rw [after_eq]
  split
  · rename_i accepted
    obtain ⟨valid, owned⟩ := (review_isEmpty_iff r o.manifest).mp accepted
    exact h.store valid ((h.admits_iff o.manifest).mpr owned)
  · exact h

theorem Coherent.run {r : Registry} (h : r.Coherent) (offers : List Offer) :
    (r.run offers).Coherent := by
  induction offers generalizing r with
  | nil => exact h
  | cons o rest ih => exact ih (h.after o)

theorem coherent_empty : empty.Coherent := by
  refine ⟨List.nodup_nil, ?_, ?_, List.nodup_nil, by simp [empty]⟩
  · intro n i
    simp [empty]
  · intro id n
    simp [empty, Owns]

theorem demo_deployable (stamp : String) : (Manifest.demo stamp).validate.isEmpty = true := by
  change (Manifest.demo "").validate.isEmpty = true
  decide

theorem Initial.coherent {r : Registry} (h : Initial r) : r.Coherent := by
  cases h with
  | empty => exact coherent_empty
  | seeded stamp =>
    refine coherent_empty.store (demo_deployable stamp) ?_
    rintro id _ n ⟨m, hm, _⟩
    exact absurd hm List.not_mem_nil

theorem Reachable.coherent {r : Registry} (h : r.Reachable) : r.Coherent := by
  obtain ⟨first, offers, initial, rfl⟩ := h
  exact initial.coherent.run offers

theorem seeded_manifests (stamp : String) : (seeded stamp).manifests = [Manifest.demo stamp] := by
  rw [seeded, store_append (by simp [empty])]
  rfl

/-! ## The list without the tables

The tables spare the registry a search: what it lists after an offer follows from what it listed before. -/

/-- The manifest breaks no rule, and no other namespace of the list publishes one of its ids. -/
def Fits (ms : List Manifest) (m : Manifest) : Prop :=
  m.validate = Report.empty ∧
    ∀ k ∈ ms, k.namespaceName ≠ m.namespaceName → ∀ c ∈ m.commands, c.id ∉ k.ids

instance (ms : List Manifest) (m : Manifest) : Decidable (Fits ms m) :=
  inferInstanceAs (Decidable (_ ∧ _))

/-- The list with a manifest in the place of the one of its namespace, or at the end. -/
def put : List Manifest → Manifest → List Manifest
  | [], m => [m]
  | k :: rest, m =>
    if k.namespaceName = m.namespaceName then m :: rest else k :: put rest m

def listAfter (ms : List Manifest) (o : Offer) : List Manifest :=
  if Fits ms o.manifest then put ms o.stamped else ms

theorem put_append {front : List Manifest} {m : Manifest}
    (apart : ∀ k ∈ front, k.namespaceName ≠ m.namespaceName) (back : List Manifest) :
    put (front ++ back) m = front ++ put back m := by
  induction front with
  | nil => rfl
  | cons k rest ih =>
    rw [List.forall_mem_cons] at apart
    rw [List.cons_append, put, if_neg apart.1, ih apart.2, List.cons_append]

theorem put_of_apart {ms : List Manifest} {m : Manifest}
    (apart : ∀ k ∈ ms, k.namespaceName ≠ m.namespaceName) : put ms m = ms ++ [m] := by
  simpa [put] using put_append apart []

theorem Coherent.manifests_store {r : Registry} (h : r.Coherent) (m : Manifest) :
    (r.store m).manifests = put r.manifests m := by
  cases known : r.position[m.namespaceName]? with
  | none => rw [store_append known, put_of_apart ((h.position_eq_none_iff _).mp known)]
  | some i =>
    obtain ⟨previous, held, same⟩ := (h.position_iff _ i).mp known
    obtain ⟨front, back, was, becomes⟩ := exists_split_set held m
    have distinct := h.namespaces_nodup
    rw [was, (List.perm_middle.map _).nodup_iff, List.map_cons, List.nodup_cons] at distinct
    have apart : ∀ k ∈ front, k.namespaceName ≠ m.namespaceName := by
      intro k hk equal
      exact distinct.1 (List.mem_map.mpr ⟨k, List.mem_append_left back hk, equal.trans same.symm⟩)
    rw [store_replace known held, becomes, was, put_append apart, put, if_pos same]

theorem Coherent.manifests_after {r : Registry} (h : r.Coherent) (o : Offer) :
    (r.after o).manifests = listAfter r.manifests o := by
  rw [listAfter]
  by_cases fits : Fits r.manifests o.manifest
  · rw [after_of_accepted ((h.accepts_iff o.manifest).mpr fits), h.manifests_store, if_pos fits]
  · rw [after_eq, if_neg (fun accepted => fits ((h.accepts_iff o.manifest).mp accepted)),
      if_neg fits]

theorem Coherent.refuses {r : Registry} (h : r.Coherent) {m : Manifest}
    (unfit : ¬ Fits r.manifests m) (stamp : String) :
    r.publish stamp m = .error ⟨m.namespaceName, r.review m⟩ := by
  rw [publish_eq, if_neg (fun accepted => unfit ((h.accepts_iff m).mp accepted))]

theorem Coherent.manifests_run {r : Registry} (h : r.Coherent) (offers : List Offer) :
    (r.run offers).manifests = offers.foldl listAfter r.manifests := by
  induction offers generalizing r with
  | nil => rfl
  | cons o rest ih => rw [Registry.run, ih (h.after o), h.manifests_after, List.foldl_cons]

/-- However a registry came about, its namespaces are distinct and each stands where the table of
positions says; an id has the owner that publishes a command with it, and comes nowhere else; and
every manifest may be published. -/
theorem reachable_registry_in_step {r : Registry} (h : r.Reachable) :
    (r.manifests.map (·.namespaceName)).Nodup ∧
    (∀ n i, r.position[n]? = some i ↔
      ∃ m : Manifest, r.manifests[i]? = some m ∧ m.namespaceName = n) ∧
    (∀ id n, r.owner[id]? = some n ↔
      ∃ m ∈ r.manifests, m.namespaceName = n ∧ ∃ c ∈ m.commands, c.id = id) ∧
    (r.manifests.flatMap fun m => m.commands.map (·.id)).Nodup ∧
    ∀ m ∈ r.manifests, m.validate = Report.empty := by
  have coherent := h.coherent
  refine ⟨coherent.namespaces_nodup, coherent.position_iff, ?_, coherent.ids_nodup, ?_⟩
  · simpa only [Owns, Manifest.ids, List.mem_map] using coherent.owner_iff
  · intro m hm
    exact Report.isEmpty_iff_eq_empty.mp (coherent.deployable m hm)

/-- A new project is accepted, the demo manifest is refused under another namespace, and under its own
it takes the place of the one that was there. -/
def mixedOffers : List Offer :=
  [⟨"1", Manifest.scaffold "1"⟩, ⟨"2", { Manifest.demo "1" with namespaceName := "other" }⟩,
    ⟨"3", Manifest.demo "2"⟩]

theorem manifests_run_seeded (stamp : String) (offers : List Offer) :
    ((seeded stamp).run offers).manifests = offers.foldl listAfter [Manifest.demo stamp] := by
  rw [(Initial.seeded stamp).coherent.manifests_run, seeded_manifests]

theorem manifests_run_mixed :
    ((seeded "0").run mixedOffers).manifests = [Manifest.demo "3", Manifest.scaffold "1"] :=
  manifests_run_seeded "0" mixedOffers

/-- What the registry holds after each of the mixed offers, and how its tables stand in the end. -/
theorem mixed_run_in_step :
    let r := (seeded "0").run mixedOffers
    let id := "billing-service:invoice-generate"
    ((seeded "0").run (mixedOffers.take 1)).manifests = [Manifest.demo "0", Manifest.scaffold "1"] ∧
    ((seeded "0").run (mixedOffers.take 2)).manifests = [Manifest.demo "0", Manifest.scaffold "1"] ∧
    r.manifests = [Manifest.demo "3", Manifest.scaffold "1"] ∧
    r.position["billing-service"]? = some 0 ∧ r.position["new-project"]? = some 1 ∧
    r.position["other"]? = none ∧ r.owner[id]? = some "billing-service" ∧
    (∀ k, k ≠ id → r.owner[k]? = none) ∧
    (r.manifests.map (·.namespaceName)).Nodup ∧ ∀ m ∈ r.manifests, m.validate = Report.empty := by
  intro r id
  have listed : r.manifests = [Manifest.demo "3", Manifest.scaffold "1"] := manifests_run_mixed
  obtain ⟨distinct, position, owner, -, valid⟩ :=
    reachable_registry_in_step (r := r) ⟨_, mixedOffers, .seeded "0", rfl⟩
  rw [listed] at position owner
  refine ⟨manifests_run_seeded "0" _, manifests_run_seeded "0" _, listed, ?_, ?_, ?_, ?_, ?_,
    distinct, valid⟩
  · exact (position _ 0).mpr ⟨_, rfl, rfl⟩
  · exact (position _ 1).mpr ⟨_, rfl, rfl⟩
  · refine Option.eq_none_iff_forall_ne_some.mpr fun i known => ?_
    obtain ⟨m, held, named⟩ := (position _ i).mp known
    have other : ∀ m ∈ [Manifest.demo "3", Manifest.scaffold "1"], m.namespaceName ≠ "other" := by
      decide
    exact other m (List.mem_of_getElem? held) named
  · exact (owner _ _).mpr ⟨_, List.mem_cons_self, rfl, _, List.mem_cons_self, rfl⟩
  · intro k other
    refine Option.eq_none_iff_forall_ne_some.mpr fun n owned => ?_
    obtain ⟨m, hm, -, c, hc, rfl⟩ := (owner _ n).mp owned
    have only : ∀ m ∈ [Manifest.demo "3", Manifest.scaffold "1"], ∀ c ∈ m.commands, c.id = id := by
      decide
    exact other (only m hm c hc)

end Registry

end CommandDeck
