import Mathlib.Data.Finset.Card
import CommandDeck.Proofs.Registry.Coherence
import CommandDeck.Proofs.Terminal.Snapshot

/-!
# A registry as its history

The history of a registry is the list of the manifests that it accepted, each under the stamp of its
offer; a demo manifest that was there from the start counts as the first. A registry lists the
namespaces of its history in the order in which they came first, and under each the manifest that came
last. Refused offers do not show.
-/

namespace CommandDeck

namespace History

/-- The namespaces of a history, in the order in which they came first. -/
def namespaces (history : List Manifest) : List String :=
  (history.map (·.namespaceName)).eraseDups

/-- The manifest that came last under a namespace. -/
def last? (history : List Manifest) (n : String) : Option Manifest :=
  history.reverse.find? fun m => m.namespaceName == n

theorem namespaces_concat (history : List Manifest) (m : Manifest) :
    namespaces (history ++ [m]) =
      if m.namespaceName ∈ namespaces history then namespaces history
      else namespaces history ++ [m.namespaceName] := by
  simp only [namespaces, List.map_append, List.map_cons, List.map_nil, List.eraseDups_append,
    List.mem_eraseDups]
  generalize history.map (·.namespaceName) = names
  by_cases known : m.namespaceName ∈ names
  · simp [List.removeAll, known]
  · simp [List.removeAll, known, List.eraseDups_cons]

theorem last?_concat (history : List Manifest) (m : Manifest) (n : String) :
    last? (history ++ [m]) n = if m.namespaceName = n then some m else last? history n := by
  by_cases same : m.namespaceName = n
  · simp [last?, same]
  · simp [last?, same]

theorem namespaceName_of_last? {history : List Manifest} {n : String} {m : Manifest}
    (h : last? history n = some m) : m.namespaceName = n := by
  simpa using List.find?_some h

theorem mem_namespaces_of_last? {history : List Manifest} {n : String} {m : Manifest}
    (h : last? history n = some m) : n ∈ namespaces history := by
  rw [namespaces, List.mem_eraseDups, ← namespaceName_of_last? h]
  exact List.mem_map_of_mem (List.mem_reverse.mp (List.mem_of_find?_eq_some h))

end History

namespace Registry

/-- What an offer adds to the history. -/
def taken (r : Registry) (o : Offer) : List Manifest :=
  match r.publish o.stamp o.manifest with
  | .ok _ => [o.stamped]
  | .error _ => []

/-- The manifests that a run accepts, in order. -/
def accepted (r : Registry) : List Offer → List Manifest
  | [] => []
  | o :: rest => r.taken o ++ (r.after o).accepted rest

/-- The registry from which a program starts: empty, or with the demo manifest under a stamp. -/
def opening : Option String → Registry
  | none => empty
  | some stamp => seeded stamp

/-- The history of a registry from which a program starts. -/
def openingHistory : Option String → List Manifest
  | none => []
  | some stamp => [Manifest.demo stamp]

/-- The registry lists what a history comes to. -/
structure Lists (r : Registry) (history : List Manifest) : Prop where
  namespaces : r.manifests.map (·.namespaceName) = History.namespaces history
  last : ∀ m ∈ r.manifests, History.last? history m.namespaceName = some m

theorem namespaces_put (ms : List Manifest) (m : Manifest) :
    (put ms m).map (·.namespaceName) =
      if m.namespaceName ∈ ms.map (·.namespaceName) then ms.map (·.namespaceName)
      else ms.map (·.namespaceName) ++ [m.namespaceName] := by
  induction ms with
  | nil => rfl
  | cons k rest ih =>
    by_cases same : k.namespaceName = m.namespaceName
    · simp [put, same]
    · rw [put, if_neg same, List.map_cons, ih]
      by_cases known : m.namespaceName ∈ rest.map (·.namespaceName)
      · simp [known]
      · simp [known, Ne.symm same]

theorem taken_eq (r : Registry) (o : Offer) :
    r.taken o = if (r.review o.manifest).isEmpty then [o.stamped] else [] := by
  rw [taken, publish_eq]
  by_cases accepted : (r.review o.manifest).isEmpty = true
  · rw [if_pos accepted, if_pos accepted]
  · rw [if_neg accepted, if_neg accepted]

/-- The manifests that a registry accepts which lists `ms`. -/
def acceptedBy (ms : List Manifest) : List Offer → List Manifest
  | [] => []
  | o :: rest =>
    (if Fits ms o.manifest then [o.stamped] else []) ++ acceptedBy (listAfter ms o) rest

theorem Coherent.accepted_eq {r : Registry} (h : r.Coherent) (offers : List Offer) :
    r.accepted offers = acceptedBy r.manifests offers := by
  induction offers generalizing r with
  | nil => rfl
  | cons o rest ih =>
    have fits : (r.review o.manifest).isEmpty = true ↔ Fits r.manifests o.manifest :=
      h.accepts_iff o.manifest
    rw [accepted, ih (h.after o), h.manifests_after, taken_eq]
    simp only [fits, acceptedBy]

/-- A store adds a manifest to the history. -/
theorem Lists.store {r : Registry} {history : List Manifest} (h : r.Lists history)
    (coherent : r.Coherent) (m : Manifest) : (r.store m).Lists (history ++ [m]) := by
  constructor
  · rw [coherent.manifests_store, namespaces_put, h.namespaces, History.namespaces_concat]
  · obtain ⟨front, old, back, s⟩ := coherent.store_splits m
    intro k hk
    rw [History.last?_concat]
    rcases s.mem_iff.mp hk with rfl | hk
    · rw [if_pos rfl]
    · rw [if_neg (s.others k hk).symm, h.last k (s.kept.subset hk)]

theorem Lists.after {r : Registry} {history : List Manifest} (h : r.Lists history)
    (coherent : r.Coherent) (o : Offer) : (r.after o).Lists (history ++ r.taken o) := by
  rw [taken_eq]
  by_cases accepted : (r.review o.manifest).isEmpty = true
  · rw [after_of_accepted accepted, if_pos accepted]
    exact h.store coherent o.stamped
  · rw [after_eq, if_neg accepted, if_neg accepted, List.append_nil]
    exact h

theorem Lists.run {r : Registry} {history : List Manifest} (h : r.Lists history)
    (coherent : r.Coherent) (offers : List Offer) :
    (r.run offers).Lists (history ++ r.accepted offers) := by
  induction offers generalizing r history with
  | nil =>
    rw [accepted, List.append_nil]
    exact h
  | cons o rest ih =>
    rw [accepted, ← List.append_assoc]
    exact ih (h.after coherent o) (coherent.after o)

theorem opening_initial (seed? : Option String) : Initial (opening seed?) := by
  cases seed? with
  | none => exact .empty
  | some stamp => exact .seeded stamp

theorem opening_lists (seed? : Option String) : (opening seed?).Lists (openingHistory seed?) := by
  have nothing : empty.Lists [] := ⟨rfl, fun m hm => absurd hm List.not_mem_nil⟩
  cases seed? with
  | none => exact nothing
  | some stamp => exact nothing.store coherent_empty (Manifest.demo stamp)

/-- The manifests of a registry are those that came last under the namespaces of its history. -/
theorem Lists.manifests_eq {r : Registry} {history : List Manifest} (h : r.Lists history) :
    r.manifests.map some = (History.namespaces history).map (History.last? history) := by
  rw [← h.namespaces, List.map_map]
  exact List.map_congr_left fun m hm => (h.last m hm).symm

theorem Lists.get?_eq {r : Registry} {history : List Manifest} (h : r.Lists history)
    (coherent : r.Coherent) (n : String) : r.get? n = History.last? history n := by
  ext m
  rw [coherent.get?_eq_some_iff]
  constructor
  · rintro ⟨hm, rfl⟩
    exact h.last m hm
  · intro last
    have known := History.mem_namespaces_of_last? last
    rw [← h.namespaces] at known
    obtain ⟨k, hk, rfl⟩ := List.mem_map.mp known
    rw [h.last k hk] at last
    cases last
    exact ⟨hk, rfl⟩

theorem Lists.length_eq {r : Registry} {history : List Manifest} (h : r.Lists history)
    (coherent : r.Coherent) :
    r.manifests.length = (history.map (·.namespaceName)).toFinset.card := by
  have distinct := coherent.namespaces_nodup
  rw [← List.length_map (·.namespaceName), ← List.toFinset_card_of_nodup distinct, h.namespaces]
  congr 1
  ext n
  simp [History.namespaces]

/-- However the offers of a program go, its registry lists the namespaces that were ever accepted, in
the order in which each was accepted first, with the manifest that was accepted last, under the stamp of
its offer; it finds under a namespace what it lists, and nothing else. An offer that is refused might
as well not have been made, and a session that synchronises gets what is listed at that moment. -/
theorem run_lists_history (seed? : Option String) (offers : List Offer) :
    let r := (opening seed?).run offers
    let history := openingHistory seed? ++ (opening seed?).accepted offers
    r.manifests.map some = (History.namespaces history).map (History.last? history) ∧
    (∀ n, r.get? n = History.last? history n) ∧
    r.manifests.length = (history.map (·.namespaceName)).toFinset.card ∧
    (∀ before o later, offers = before ++ o :: later →
      (∃ e, ((opening seed?).run before).publish o.stamp o.manifest = .error e) →
        r = (opening seed?).run (before ++ later)) ∧
    ∀ options clock (t : Turn), t.session.state.isLoggedIn = true →
      ∃ turn, Terminal.sync options r clock t = .ok () turn ∧ turn.session.cache = r.manifests := by
  intro r history
  have coherent := (opening_initial seed?).coherent
  have lists := (opening_lists seed?).run coherent offers
  have coherent := coherent.run offers
  refine ⟨lists.manifests_eq, lists.get?_eq coherent, lists.length_eq coherent, ?_, ?_⟩
  · rintro before o later rfl ⟨e, refused⟩
    simp only [r, run_append]
    rw [run, after_of_refused refused]
  · intro options clock t entered
    exact ⟨_, Terminal.sync_of_entered options r clock t entered, rfl⟩

/-- The mixed offers to a registry with the demo manifest: two enter the history, and the one of the
other namespace might as well not have been made. -/
theorem mixed_run_listed :
    let first := opening (some "0")
    let r := first.run mixedOffers
    let history := openingHistory (some "0") ++ first.accepted mixedOffers
    let other : Manifest := { Manifest.demo "1" with namespaceName := "other" }
    let loggedIn : Turn := ⟨.start, ⟨.loggedIn false, []⟩⟩
    history = [Manifest.demo "0", Manifest.scaffold "1", Manifest.demo "3"] ∧
    r.manifests = [Manifest.demo "3", Manifest.scaffold "1"] ∧
    r.get? "billing-service" = some (Manifest.demo "3") ∧ r.get? "other" = none ∧
    (history.map (·.namespaceName)).toFinset.card = 2 ∧
    (∃ e, (first.run (mixedOffers.take 1)).publish "2" other = .error e) ∧
    r = first.run [⟨"1", Manifest.scaffold "1"⟩, ⟨"3", Manifest.demo "2"⟩] ∧
    ∃ turn, Terminal.sync ⟨"me", 800, ⟨400, 400, 600⟩⟩ r (.showing "noon") loggedIn = .ok () turn ∧
      turn.session.cache = [Manifest.demo "3", Manifest.scaffold "1"] := by
  intro first r history other loggedIn
  have known : history = [Manifest.demo "0", Manifest.scaffold "1", Manifest.demo "3"] := by
    change openingHistory (some "0") ++ (seeded "0").accepted mixedOffers = _
    rw [(Initial.seeded "0").coherent.accepted_eq, seeded_manifests]
    rfl
  have refused : ∃ e, (first.run (mixedOffers.take 1)).publish "2" other = .error e := by
    have unfit : ¬ Fits (first.run (mixedOffers.take 1)).manifests other := by
      change ¬ Fits ((seeded "0").run (mixedOffers.take 1)).manifests other
      rw [manifests_run_seeded]
      decide
    exact ⟨_, ((Initial.seeded "0").coherent.run _).refuses unfit "2"⟩
  have listed : r.manifests = [Manifest.demo "3", Manifest.scaffold "1"] := manifests_run_mixed
  obtain ⟨-, found, -, spared, synced⟩ := run_lists_history (some "0") mixedOffers
  obtain ⟨turn, answered, cached⟩ :=
    synced ⟨"me", 800, ⟨400, 400, 600⟩⟩ (.showing "noon") loggedIn rfl
  refine ⟨known, listed, ?_, ?_, ?_, refused, ?_, turn, answered, cached.trans listed⟩
  · rw [found]
    change History.last? history "billing-service" = _
    rw [known]
    rfl
  · rw [found]
    change History.last? history "other" = _
    rw [known]
    rfl
  · rw [known]
    decide
  · exact spared [_] ⟨"2", other⟩ [_] rfl refused

end Registry

end CommandDeck
