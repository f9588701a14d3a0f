import Mathlib.Data.List.Induction
import CommandDeck.Proofs.Registry.Isolation

/-!
# What a registry lists is all that it knows

The tables of a registry follow from its manifests, so two registries with the same list cannot be told
apart by publishing and looking up, whatever happened to them before. A registry can therefore be
rebuilt from its list: offered one after the other to an empty registry, the manifests are all accepted
and stand there as they stood before, under new stamps.
-/

namespace CommandDeck

namespace Registry

/-- What a program can ask of a registry. -/
inductive Call where
  | publish (o : Offer)
  | get (namespaceName : String)
  | lookup (target : String)

/-- What it gets for an answer. The verdict on an offer is the manifest as stored or the refusal with
its report. -/
inductive Reply where
  | verdict (outcome : Except Rejection Manifest)
  | held (m? : Option Manifest)
  | found (c? : Option Resolved)

def reply (r : Registry) : Call → Reply
  | .publish o => .verdict ((r.publish o.stamp o.manifest).map (·.2))
  | .get n => .held (r.get? n)
  | .lookup target => .found (r.lookup? target)

def afterCall (r : Registry) : Call → Registry
  | .publish o => r.after o
  | .get _ => r
  | .lookup _ => r

/-- The replies to calls that are made one after the other. -/
def replies (r : Registry) : List Call → List Reply
  | [] => []
  | c :: rest => r.reply c :: (r.afterCall c).replies rest

def afterCalls (r : Registry) (calls : List Call) : Registry := calls.foldl afterCall r

namespace Coherent

variable {r s : Registry}

theorem owner_congr (hr : r.Coherent) (hs : s.Coherent) (same : r.manifests = s.manifests)
    (id : String) : r.owner[id]? = s.owner[id]? := by
  ext n
  rw [hr.owner_iff, hs.owner_iff, Owns, Owns, same]

theorem position_congr (hr : r.Coherent) (hs : s.Coherent) (same : r.manifests = s.manifests)
    (n : String) : r.position[n]? = s.position[n]? := by
  ext i
  rw [hr.position_iff, hs.position_iff, same]

theorem get?_congr (hr : r.Coherent) (hs : s.Coherent) (same : r.manifests = s.manifests)
    (n : String) : r.get? n = s.get? n := by
  rw [get?, get?, hr.position_congr hs same, same]

theorem lookup?_congr (same : r.manifests = s.manifests) (target : String) :
    r.lookup? target = s.lookup? target := by
  rw [lookup?, lookup?, same]

theorem review_congr (hr : r.Coherent) (hs : s.Coherent) (same : r.manifests = s.manifests)
    (m : Manifest) : r.review m = s.review m := by
  rw [review, review, ownershipFindings, ownershipFindings]
  congr 1
  refine List.filterMap_congr fun c _ => ?_
  rw [hr.owner_congr hs same]

/-- An offer gets one verdict from both, and leaves them with one list. -/
theorem publish_congr (hr : r.Coherent) (hs : s.Coherent) (same : r.manifests = s.manifests)
    (stamp : String) (m : Manifest) :
    (r.publish stamp m).map (·.2) = (s.publish stamp m).map (·.2) := by
  rw [publish_eq, publish_eq, hr.review_congr hs same m]
  split <;> rfl

theorem manifests_after_congr (hr : r.Coherent) (hs : s.Coherent)
    (same : r.manifests = s.manifests) (o : Offer) :
    (r.after o).manifests = (s.after o).manifests := by
  rw [hr.manifests_after, hs.manifests_after, same]

theorem reply_congr (hr : r.Coherent) (hs : s.Coherent) (same : r.manifests = s.manifests)
    (c : Call) : r.reply c = s.reply c := by
  cases c with
  | publish o => exact congrArg Reply.verdict (hr.publish_congr hs same o.stamp o.manifest)
  | get n => exact congrArg Reply.held (hr.get?_congr hs same n)
  | lookup target => exact congrArg Reply.found (lookup?_congr same target)

theorem manifests_afterCall_congr (hr : r.Coherent) (hs : s.Coherent)
    (same : r.manifests = s.manifests) (c : Call) :
    (r.afterCall c).manifests = (s.afterCall c).manifests := by
  cases c with
  | publish o => exact hr.manifests_after_congr hs same o
  | get _ => exact same
  | lookup _ => exact same

theorem afterCall (h : r.Coherent) (c : Call) : (r.afterCall c).Coherent := by
  cases c with
  | publish o => exact h.after o
  | get _ => exact h
  | lookup _ => exact h

theorem replies_congr (hr : r.Coherent) (hs : s.Coherent) (same : r.manifests = s.manifests)
    (calls : List Call) :
    r.replies calls = s.replies calls ∧
      (r.afterCalls calls).manifests = (s.afterCalls calls).manifests := by
  induction calls generalizing r s with
  | nil => exact ⟨rfl, same⟩
  | cons c rest ih =>
    obtain ⟨answered, listed⟩ := ih (hr.afterCall c) (hs.afterCall c)
      (hr.manifests_afterCall_congr hs same c)
    refine ⟨?_, listed⟩
    rw [replies, replies, hr.reply_congr hs same c, answered]

end Coherent

/-- The offers are of manifests that the registry lists, in their order. -/
def Republishes (r : Registry) (offers : List Offer) : Prop :=
  (offers.map (·.manifest)).Sublist r.manifests

variable {r : Registry}

/-- After manifests of the registry, the next one is accepted: its ids stand in no other. -/
theorem Coherent.accepts_next (h : r.Coherent) {s : Registry} (hs : s.Coherent)
    {before : List Offer} {o : Offer} (listed : r.Republishes (before ++ [o]))
    (built : s.manifests = before.map Offer.stamped) :
    (s.review o.manifest).isEmpty = true := by
  have published : ∀ x ∈ before ++ [o], x.manifest ∈ r.manifests := fun x hx =>
    listed.subset (List.mem_map_of_mem hx)
  have here : o.manifest ∈ r.manifests := published o (by simp)
  rw [hs.accepts_iff]
  refine ⟨Report.isEmpty_iff_eq_empty.mp (h.deployable _ here), ?_⟩
  intro k hk other c hc hid
  rw [built] at hk
  obtain ⟨x, hx, rfl⟩ := List.mem_map.mp hk
  exact other (h.owner_unique ⟨x.manifest, published x (by simp [hx]), rfl, hid⟩
    ⟨o.manifest, here, rfl, List.mem_map_of_mem hc⟩)

/-- A manifest that may be published is all that an empty registry holds after it is offered. -/
theorem manifests_after_empty {o : Offer} (valid : o.manifest.validate.isEmpty = true) :
    (empty.after o).manifests = [o.stamped] := by
  have fits : Fits [] o.manifest :=
    ⟨Report.isEmpty_iff_eq_empty.mp valid, fun k hk => absurd hk List.not_mem_nil⟩
  rw [coherent_empty.manifests_after]
  exact if_pos fits

/-- Its namespace is new, so it is put at the end. -/
theorem Coherent.store_next (h : r.Coherent) {s : Registry} (hs : s.Coherent)
    {before : List Offer} {o : Offer} (listed : r.Republishes (before ++ [o]))
    (built : s.manifests = before.map Offer.stamped) :
    (s.store o.stamped).manifests = (before ++ [o]).map Offer.stamped := by
  have distinct := (listed.map (·.namespaceName)).nodup h.namespaces_nodup
  simp only [List.map_append, List.map_cons, List.map_nil, List.nodup_append'] at distinct
  rw [hs.manifests_store, built, put_of_apart, List.map_append]
  · rfl
  · intro k hk same
    obtain ⟨x, hx, rfl⟩ := List.mem_map.mp hk
    exact distinct.2.2 (List.mem_map_of_mem (List.mem_map_of_mem hx)) (List.mem_singleton.mpr same)

theorem Republishes.before {before later : List Offer} (h : r.Republishes (before ++ later)) :
    r.Republishes before :=
  ((List.sublist_append_left before later).map _).trans h

theorem Coherent.run_republished (h : r.Coherent) {offers : List Offer}
    (listed : r.Republishes offers) :
    (empty.run offers).manifests = offers.map Offer.stamped := by
  induction offers using List.reverseRecOn with
  | nil => rfl
  | append_singleton before o ih =>
    have built := ih listed.before
    have coherent := coherent_empty.run before
    have accepted := h.accepts_next coherent listed built
    rw [run_append]
    change ((empty.run before).after o).manifests = _
    rw [after_of_accepted accepted]
    exact h.store_next coherent listed built

theorem Coherent.publish_republished (h : r.Coherent) {before later : List Offer} {o : Offer}
    (listed : r.Republishes (before ++ o :: later)) :
    ∃ next, (empty.run before).publish o.stamp o.manifest = .ok (next, o.stamped) := by
  have upTo : r.Republishes (before ++ [o]) := by
    have whole : r.Republishes ((before ++ [o]) ++ later) := by rwa [List.append_assoc]
    exact whole.before
  have accepted := h.accepts_next (coherent_empty.run before) upTo
    (h.run_republished upTo.before)
  exact ⟨_, publish_of_accepted accepted⟩

/-- Two registries, however they came about, that list the same manifests give the same verdicts, the
same reports and the same finds from then on, and keep listing the same. A registry whose manifests are
offered in their order to an empty one accepts every one of them, and then lists them all under their
new stamps, each in its old place and with its old ids. -/
theorem behaves_as_it_lists {r s : Registry} (hr : r.Reachable) (hs : s.Reachable) :
    (r.manifests = s.manifests → ∀ calls,
      r.replies calls = s.replies calls ∧
        (r.afterCalls calls).manifests = (s.afterCalls calls).manifests) ∧
    ∀ offers, offers.map (·.manifest) = r.manifests →
      (∀ before o later, offers = before ++ o :: later →
        ∃ next, (empty.run before).publish o.stamp o.manifest = .ok (next, o.stamped)) ∧
      (empty.run offers).manifests = offers.map Offer.stamped ∧
      (∀ n : String, (empty.run offers).position[n]? = r.position[n]?) ∧
      ∀ id : String, (empty.run offers).owner[id]? = r.owner[id]? := by
  refine ⟨hr.coherent.replies_congr hs.coherent, ?_⟩
  intro offers listing
  have coherent := coherent_empty.run offers
  have listed : r.Republishes offers := by rw [Republishes, listing]
  have built := hr.coherent.run_republished listed
  refine ⟨?_, built, ?_, ?_⟩
  · rintro before o later rfl
    exact hr.coherent.publish_republished listed
  · intro n
    ext i
    rw [coherent.position_iff, hr.coherent.position_iff, built, ← listing]
    simp only [List.getElem?_map, Option.map_eq_some_iff]
    constructor
    · rintro ⟨_, ⟨o, here, rfl⟩, named⟩
      exact ⟨o.manifest, ⟨o, here, rfl⟩, named⟩
    · rintro ⟨_, ⟨o, here, rfl⟩, named⟩
      exact ⟨o.stamped, ⟨o, here, rfl⟩, named⟩
  · intro id
    ext n
    rw [coherent.owner_iff, hr.coherent.owner_iff, Owns, Owns, built, ← listing]
    simp only [List.mem_map, exists_exists_and_eq_and]
    rfl

/-- The command of the demo manifest goes to another namespace. The registry that saw it go is not told
apart from one that never had the demo manifest as it was. -/
theorem handover_does_not_show :
    let demo := Manifest.demo "0"
    let offers : List Offer :=
      [⟨"1", { demo with commands := [] }⟩, ⟨"2", { demo with namespaceName := "other" }⟩]
    let r := (seeded "0").run offers
    let s := empty.run offers
    r.manifests = offers.map Offer.stamped ∧ s.manifests = offers.map Offer.stamped ∧
    (∀ calls, r.replies calls = s.replies calls ∧
      (r.afterCalls calls).manifests = (s.afterCalls calls).manifests) ∧
    ∀ id : String, (empty.run (s.manifests.map fun m => ⟨"3", m⟩)).owner[id]? = r.owner[id]? := by
  intro demo offers r s
  have hr : r.manifests = offers.map Offer.stamped := manifests_run_seeded "0" offers
  have hs : s.manifests = offers.map Offer.stamped := coherent_empty.manifests_run offers
  have reachable : r.Reachable := ⟨_, offers, .seeded "0", rfl⟩
  have reached : s.Reachable := ⟨_, offers, .empty, rfl⟩
  refine ⟨hr, hs, (behaves_as_it_lists reachable reached).1 (hr.trans hs.symm), ?_⟩
  refine ((behaves_as_it_lists reachable reached).2 _ ?_).2.2.2
  rw [List.map_map, hr, hs]
  exact List.map_id _

end Registry

end CommandDeck
