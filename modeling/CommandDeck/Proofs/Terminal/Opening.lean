import CommandDeck.Proofs.Host.Journal
import CommandDeck.Proofs.Manifest.SavedFile
import CommandDeck.Proofs.Registry.History
import CommandDeck.Proofs.Registry.Stamps
import CommandDeck.Proofs.Registry.Verdict

/-!
# Opening a terminal with manifest files

Each file that is listed for a terminal is published or skipped, and its note says which. A file that is
skipped leaves the registry as it was, so no later file fares otherwise for it: without the skipped ones,
all files are published and make the same registry, but for the stamps. A file alone is published exactly
when it passes as valid.
-/

namespace CommandDeck

/-- What becomes of a file that is listed. -/
inductive Fate where
  | published (m : Manifest)
  | skipped (reason : String)

/-- An entry of the list of files, and what becomes of it. -/
structure FileOutcome where
  path : String
  fate : Fate

namespace FileOutcome

/-- The manifest that was published. -/
def manifest? (o : FileOutcome) : Option Manifest :=
  match o.fate with
  | .published m => some m
  | .skipped _ => none

def note (o : FileOutcome) : Note :=
  match o.fate with
  | .published m => ⟨.info, "Published '" ++ m.namespaceName ++ "' from " ++ o.path⟩
  | .skipped reason => ⟨.warning, "Skipping " ++ o.path ++ ": " ++ reason⟩

end FileOutcome

namespace Registry

/-- What becomes of a file that holds this. -/
def fate (r : Registry) (stamp : String) (content : Except FileError ByteArray) : Fate :=
  match Manifest.ofContent content with
  | .error e => .skipped e.message
  | .ok m =>
    match r.publish stamp m with
    | .error e => .skipped e.message
    | .ok _ => .published m

def afterFate (r : Registry) (stamp : String) : Fate → Registry
  | .published m => r.after ⟨stamp, m⟩
  | .skipped _ => r

/-- What becomes of the files at some paths, one after the other. -/
def outcomes (contents : String → Except FileError ByteArray) (stamp : String) :
    Registry → List String → List FileOutcome
  | _, [] => []
  | r, p :: rest =>
    ⟨p, r.fate stamp (contents p)⟩ ::
      outcomes contents stamp (r.afterFate stamp (r.fate stamp (contents p))) rest

/-- The outcomes of the files that are published. -/
def kept (outcomes : List FileOutcome) : List FileOutcome := outcomes.filter fun o => o.manifest?.isSome

/-- The manifests that are published, as offers. -/
def offered (stamp : String) (outcomes : List FileOutcome) : List Offer :=
  (outcomes.filterMap FileOutcome.manifest?).map fun m => ⟨stamp, m⟩

variable {r s : Registry} {stamp : String}
variable {contents : String → Except FileError ByteArray} {paths : List String}

theorem manifest_offered (stamp : String) (outcomes : List FileOutcome) :
    (offered stamp outcomes).map Offer.manifest = outcomes.filterMap FileOutcome.manifest? := by
  rw [offered, List.map_map]
  exact List.map_id _

theorem filterMap_kept (outcomes : List FileOutcome) :
    (kept outcomes).filterMap FileOutcome.manifest? = outcomes.filterMap FileOutcome.manifest? := by
  rw [kept, List.filterMap_filter]
  refine List.filterMap_congr fun o _ => ?_
  cases o.manifest? with
  | none => rfl
  | some m => rfl

theorem map_path_outcomes : (r.outcomes contents stamp paths).map (·.path) = paths := by
  induction paths generalizing r with
  | nil => rfl
  | cons p rest ih => rw [outcomes, List.map_cons, ih]

theorem outcomes_of_skipped {p reason : String} (skips : r.fate stamp (contents p) = .skipped reason) :
    r.outcomes contents stamp (p :: paths) =
      ⟨p, .skipped reason⟩ :: r.outcomes contents stamp paths := by
  rw [outcomes, skips]
  rfl

theorem outcomes_of_published {p : String} {m : Manifest}
    (publishes : r.fate stamp (contents p) = .published m) :
    r.outcomes contents stamp (p :: paths) =
      ⟨p, .published m⟩ :: (r.after ⟨stamp, m⟩).outcomes contents stamp paths := by
  rw [outcomes, publishes]
  rfl

/-- The review alone decides about a manifest that is read. -/
theorem fate_eq (r : Registry) (stamp : String) (content : Except FileError ByteArray) :
    r.fate stamp content =
      match Manifest.ofContent content with
      | .error e => .skipped e.message
      | .ok m =>
        if (r.review m).isEmpty then .published m
        else .skipped (Rejection.message ⟨m.namespaceName, r.review m⟩) := by
  unfold fate
  cases Manifest.ofContent content with
  | error e => rfl
  | ok m =>
    by_cases accepted : (r.review m).isEmpty = true
    · simp only [publish_eq, if_pos accepted]
    · simp only [publish_eq, if_neg accepted]

/-- A file is published when its manifest is read and passes the review. -/
theorem fate_eq_published_iff {content : Except FileError ByteArray} {m : Manifest} :
    r.fate stamp content = .published m ↔
      Manifest.ofContent content = .ok m ∧ (r.review m).isEmpty = true := by
  rw [fate_eq]
  cases Manifest.ofContent content with
  | error e => simp
  | ok n =>
    simp only [Except.ok.injEq]
    constructor
    · intro published
      split at published
      · rename_i accepted
        cases published
        exact ⟨rfl, accepted⟩
      · cases published
    · rintro ⟨rfl, accepted⟩
      rw [if_pos accepted]

theorem SameButStamps.fate (h : SameButStamps r s) (stamp other : String)
    (content : Except FileError ByteArray) : r.fate stamp content = s.fate other content := by
  simp only [fate_eq, h.review]

/-- Nothing is skipped when the skipped files are left out. -/
theorem outcomes_kept (h : SameButStamps r s) (other : String) :
    s.outcomes contents other ((kept (r.outcomes contents stamp paths)).map (·.path)) =
      kept (r.outcomes contents stamp paths) := by
  induction paths generalizing r s with
  | nil => rfl
  | cons p rest ih =>
    cases met : r.fate stamp (contents p) with
    | skipped reason =>
      rw [outcomes_of_skipped met]
      exact ih h
    | published m =>
      have again := (h.fate stamp other (contents p)).symm.trans met
      have next := ih (h.after (o := ⟨stamp, m⟩) (p := ⟨other, m⟩) rfl)
      rw [outcomes_of_published met]
      exact (outcomes_of_published again).trans (congrArg _ next)

/-- The manifests of the published files are all accepted, under whatever stamps. -/
theorem accepted_kept (h : SameButStamps r s) {offers : List Offer}
    (same : offers.map (·.manifest) =
      (r.outcomes contents stamp paths).filterMap FileOutcome.manifest?) :
    s.accepted offers = offers.map Offer.stamped ∧
      SameButStamps (r.run (offered stamp (r.outcomes contents stamp paths))) (s.run offers) := by
  induction paths generalizing r s offers with
  | nil =>
    obtain rfl := List.map_eq_nil_iff.mp same
    exact ⟨rfl, h⟩
  | cons p rest ih =>
    cases met : r.fate stamp (contents p) with
    | skipped reason =>
      rw [outcomes_of_skipped met] at same ⊢
      exact ih h same
    | published m =>
      rw [outcomes_of_published met] at same ⊢
      obtain ⟨o, more, rfl, rfl, others⟩ := List.map_eq_cons_iff.mp same
      have passes := (fate_eq_published_iff.mp met).2
      rw [h.review] at passes
      obtain ⟨taken, ends⟩ := ih (h.after (o := ⟨stamp, o.manifest⟩) (p := o) rfl) others
      refine ⟨?_, ends⟩
      rw [accepted, taken_eq, if_pos passes, taken, List.map_cons, List.singleton_append]

theorem publishContent_eq (r : Registry) (stamp path : String)
    (content : Except FileError ByteArray) :
    r.publishContent stamp path content =
      (r.afterFate stamp (r.fate stamp content), FileOutcome.note ⟨path, r.fate stamp content⟩) := by
  unfold publishContent fate
  cases Manifest.ofContent content with
  | error e => rfl
  | ok m =>
    simp only [publish_eq]
    by_cases accepted : (r.review m).isEmpty = true
    · simp only [if_pos accepted, afterFate, after_of_accepted (o := ⟨stamp, m⟩) accepted]
      rfl
    · simp only [if_neg accepted]
      rfl

variable {j : Journal} {w : Workbench}

open CommandLine (noteAll validateFile)

/-- The registry with which a terminal opens. -/
def fromFiles (j : Journal) (seedDemo : Bool) (paths : List String) : StateM Workbench Registry := do
  publishFiles j paths (start seedDemo (← Host.clock))

theorem publishFiles_cons (j : Journal) (p : String) (rest : List String) (r : Registry)
    (w : Workbench) :
    onWorkbench (publishFiles j (p :: rest) r) w =
      let published := r.publishContent w.clock.manifestStamp p (w.files.read (Path.ofText p))
      onWorkbench (publishFiles j rest published.1) (onWorkbench (j.note published.2) w).2 := rfl

theorem publishFiles_onWorkbench (holds : w.Holds j contents paths) (r : Registry) :
    onWorkbench (publishFiles j paths r) w =
      (r.run (offered w.clock.manifestStamp (r.outcomes contents w.clock.manifestStamp paths)),
        (onWorkbench (noteAll j
          ((r.outcomes contents w.clock.manifestStamp paths).map FileOutcome.note)) w).2) := by
  induction paths generalizing r w with
  | nil => rfl
  | cons p rest ih =>
    rw [publishFiles_cons, holds.read List.mem_cons_self, publishContent_eq, outcomes]
    simp only
    rw [ih (holds.note _), (Workbench.note_keeps j _ w).2]
    cases r.fate w.clock.manifestStamp (contents p) with
    | skipped reason => rfl
    | published m => rfl

/-- On another workbench, without the files that are skipped. -/
theorem publishFiles_kept (holds : w.Holds j contents paths) (h : SameButStamps r s) {k : Journal}
    {v : Workbench} :
    let outcomes := kept (r.outcomes contents w.clock.manifestStamp paths)
    v.Holds k contents (outcomes.map (·.path)) →
      SameButStamps (onWorkbench (publishFiles j paths r) w).1
        (onWorkbench (publishFiles k (outcomes.map (·.path)) s) v).1 ∧
      (onWorkbench (publishFiles k (outcomes.map (·.path)) s) v).2 =
        (onWorkbench (noteAll k (outcomes.map FileOutcome.note)) v).2 := by
  intro outcomes there
  rw [publishFiles_onWorkbench holds, publishFiles_onWorkbench there, outcomes_kept h]
  exact ⟨(accepted_kept h ((manifest_offered _ _).trans (filterMap_kept _))).2, rfl⟩

theorem fromFiles_onWorkbench (holds : w.Holds j contents paths) (seedDemo : Bool) :
    onWorkbench (fromFiles j seedDemo paths) w =
      let first := start seedDemo w.clock
      let outcomes := first.outcomes contents w.clock.manifestStamp paths
      (first.run (offered w.clock.manifestStamp outcomes),
        (onWorkbench (noteAll j (outcomes.map FileOutcome.note)) w).2) :=
  publishFiles_onWorkbench holds _

/-- A terminal opens with the registry from the files of its choices and settings. -/
theorem start_onWorkbench (j : Journal) (c : TerminalChoices) (s : Settings) (w : Workbench) :
    onWorkbench (Terminal.start j c s) w =
      let opened := onWorkbench (fromFiles j (c.seedsDemo s) (c.manifestPaths s)) w
      (⟨c.options s, opened.1, Session.initial⟩, opened.2) := rfl

/-! ### One file alone -/

theorem review_empty (m : Manifest) : (empty.review m).isEmpty = m.validate.isEmpty := by
  rw [Bool.eq_iff_iff, review_isEmpty_iff]
  exact and_iff_left fun id _ n owned => by simp [empty] at owned

theorem validateFile_answer (j : Journal) (file : String) (asJson : Bool) (w : Workbench) :
    (onWorkbench (validateFile j file asJson) w).1 =
      match Manifest.ofContent (w.files.read (Path.ofText file)) with
      | .error e => .error ⟨("Failed to read manifest " ++ file) :: e.chain⟩
      | .ok m => .ok m.validate.isEmpty := by
  have loaded : onWorkbench (Manifest.load (Path.ofText file)) w =
      (Manifest.ofContent (w.files.read (Path.ofText file)), w) := rfl
  rw [validateFile, onWorkbench_bind, loaded]
  cases Manifest.ofContent (w.files.read (Path.ofText file)) with
  | error e => rfl
  | ok m =>
    simp only
    split
    · rfl
    · split
      · rfl
      · rfl

/-- The empty registry holds a manifest after one that is published. -/
theorem manifests_afterFate_empty (stamp : String) (content : Except FileError ByteArray) :
    (∃ m, (empty.afterFate stamp (empty.fate stamp content)).manifests = [m]) ↔
      ∃ m, empty.fate stamp content = .published m := by
  cases met : empty.fate stamp content with
  | skipped reason => simp [afterFate, empty]
  | published m =>
    have passes := (fate_eq_published_iff.mp met).2
    rw [afterFate, after_of_accepted (o := ⟨stamp, m⟩) passes, store_append (by simp [empty])]
    exact ⟨fun _ => ⟨m, rfl⟩, fun _ => ⟨_, rfl⟩⟩

/-- One file is published into the empty registry exactly when it passes as valid. -/
theorem published_alone_iff (j : Journal) (file : String) (asJson : Bool) (w : Workbench) :
    (∃ m, (onWorkbench (fromFiles j false [file]) w).1.manifests = [m]) ↔
      (onWorkbench (validateFile j file asJson) w).1 = .ok true := by
  have alone : (onWorkbench (fromFiles j false [file]) w).1 =
      (empty.publishContent w.clock.manifestStamp file (w.files.read (Path.ofText file))).1 := rfl
  rw [alone, publishContent_eq, manifests_afterFate_empty, validateFile_answer]
  simp only [fate_eq_published_iff, review_empty]
  cases Manifest.ofContent (w.files.read (Path.ofText file)) with
  | error e => simp
  | ok m => simp

/-! ### All files -/

/-- A terminal opens with the registry from its files. Each file that is listed has its outcome, and the
journal has one note for each, in order. The same registry but for the stamps comes of the files that are
published when the others are not listed, on whatever workbench they are, and of their manifests when
these are offered in order, which are all accepted. One file alone is published exactly when it passes as
valid. -/
theorem skipped_files_leave_no_trace (holds : w.Holds j contents paths) (seedDemo : Bool) :
    let first := start seedDemo w.clock
    let outcomes := first.outcomes contents w.clock.manifestStamp paths
    let opened := onWorkbench (fromFiles j seedDemo paths) w
    (∀ (c : TerminalChoices) (s : Settings), c.manifestPaths s = paths → c.seedsDemo s = seedDemo →
      onWorkbench (Terminal.start j c s) w =
        (⟨c.options s, opened.1, Session.initial⟩, opened.2)) ∧
    (outcomes.map (·.path) = paths ∧
      opened.2 = (onWorkbench (noteAll j (outcomes.map FileOutcome.note)) w).2 ∧
      ∀ q ∈ j.file?, w.files.HasHome → (w.files.perform (.append q .empty)).1 = .ok () →
        opened.2.files.contentAt q = w.files.contentAt q ++ Text.encode
          (String.join (outcomes.map fun o => Journal.line w.clock.journalStamp o.note))) ∧
    (∀ k v, v.Holds k contents ((kept outcomes).map (·.path)) →
      let again := onWorkbench (fromFiles k seedDemo ((kept outcomes).map (·.path))) v
      SameButStamps opened.1 again.1 ∧
        again.2 = (onWorkbench (noteAll k ((kept outcomes).map FileOutcome.note)) v).2) ∧
    (∀ clock offers, offers.map Offer.manifest = outcomes.filterMap FileOutcome.manifest? →
      (start seedDemo clock).accepted offers = offers.map Offer.stamped ∧
        SameButStamps opened.1 ((start seedDemo clock).run offers)) ∧
    ∀ file asJson,
      (∃ m, (onWorkbench (fromFiles j false [file]) w).1.manifests = [m]) ↔
        (onWorkbench (validateFile j file asJson) w).1 = .ok true := by
  intro first outcomes opened
  have opens : opened = _ := fromFiles_onWorkbench holds seedDemo
  refine ⟨?_, ⟨map_path_outcomes, congrArg Prod.snd opens, ?_⟩, ?_, ?_,
    fun file asJson => published_alone_iff j file asJson w⟩
  · rintro c s rfl rfl
    exact start_onWorkbench j c s w
  · intro q journal home written
    rw [opens]
    have grown := Workbench.contentAt_noteAll journal (FileTree.accepts_of_append written) home
      (outcomes.map FileOutcome.note)
    rwa [List.map_map] at grown
  · intro k v there again
    exact publishFiles_kept holds (start_sameButStamps seedDemo w.clock v.clock) there
  · intro clock offers same
    rw [opens]
    exact accepted_kept (start_sameButStamps seedDemo _ clock) same

/-- The demo manifest under another namespace. -/
def borrowed : Manifest := { Manifest.demo "0" with namespaceName := "thief" }

/-- Two manifest files beside the journal. -/
def listedFiles (journal : ByteArray) : FileTree where
  root := [("work", .folder [("nexus.log", .file journal), ("thief.json", .file borrowed.content),
    ("new.json", .file (Manifest.scaffold "0").content)])]
  working := ["work"]

def listingBench : Workbench := .fresh (listedFiles .empty) (.atInstant 0) .empty

def listedContents (file : String) : Except FileError ByteArray :=
  listingBench.files.read (Path.ofText file)

theorem read_borrowed : listedContents "thief.json" = .ok borrowed.content := rfl

theorem read_absent : listedContents "none.json" = .error .notFound := rfl

theorem read_scaffold : listedContents "new.json" = .ok (Manifest.scaffold "0").content := rfl

theorem listedFiles_noteAll {journal : ByteArray} {w : Workbench}
    (files : w.files = listedFiles journal) (notes : List Note) :
    ∃ more, (onWorkbench (noteAll Manifest.benchJournal notes) w).2.files = listedFiles more := by
  induction notes generalizing w journal with
  | nil => exact ⟨journal, files⟩
  | cons n rest ih =>
    have entered := (Workbench.note_keeps Manifest.benchJournal n w).1
    rw [Workbench.noted, files] at entered
    exact ih (entered.trans rfl)

theorem listingBench_holds :
    listingBench.Holds Manifest.benchJournal listedContents
      ["thief.json", "none.json", "new.json"] := by
  intro p mem notes
  obtain ⟨journal, files⟩ := listedFiles_noteAll (w := listingBench) rfl notes
  rw [files]
  simp only [List.mem_cons, List.not_mem_nil, or_false] at mem
  obtain rfl | rfl | rfl := mem
  · rfl
  · rfl
  · rfl

theorem ofContent_borrowed : Manifest.ofContent (.ok borrowed.content) = .ok borrowed := by
  have integral : borrowed.IsIntegral :=
    List.forall_mem_singleton.mpr
      ⟨fun _ mem => (List.not_mem_nil mem).elim, Binary64.one_isWhole false⟩
  have same : borrowed.plainZero = borrowed := by decide +kernel
  rw [Manifest.ofContent_content (by decide) integral, same]

theorem ofContent_scaffold :
    Manifest.ofContent (.ok (Manifest.scaffold "0").content) = .ok (Manifest.scaffold "0") :=
  Manifest.ofContent_content (by decide) nofun

/-- The demo manifest owns the id of the borrowed command. -/
theorem borrowed_skipped (before stamp : String) :
    ∃ reason, (seeded before).fate stamp (.ok borrowed.content) = .skipped reason := by
  cases met : (seeded before).fate stamp (.ok borrowed.content) with
  | skipped reason => exact ⟨reason, rfl⟩
  | published m =>
    obtain ⟨read, accepted⟩ := fate_eq_published_iff.mp met
    cases ofContent_borrowed.symm.trans read
    obtain ⟨-, apart⟩ := ((Initial.seeded before).coherent.accepts_iff borrowed).mp accepted
    have owned := apart (Manifest.demo before) (by simp [seeded_manifests])
      (show "billing-service" ≠ "thief" by decide)
    exact absurd List.mem_cons_self (owned _ List.mem_cons_self)

theorem scaffold_published (before stamp : String) :
    (seeded before).fate stamp (.ok (Manifest.scaffold "0").content) =
      .published (Manifest.scaffold "0") := by
  have verdict := (Initial.seeded before).coherent.accepts_iff (Manifest.scaffold "0")
  exact fate_eq_published_iff.mpr
    ⟨ofContent_scaffold, verdict.mpr ⟨rfl, fun _ _ _ _ mem => (List.not_mem_nil mem).elim⟩⟩

theorem kept_listed :
    kept ((start true listingBench.clock).outcomes listedContents listingBench.clock.manifestStamp
      ["thief.json", "none.json", "new.json"]) =
        [⟨"new.json", .published (Manifest.scaffold "0")⟩] := by
  have first : start true listingBench.clock = seeded listingBench.clock.dayBefore := rfl
  obtain ⟨reason, thief⟩ :=
    borrowed_skipped listingBench.clock.dayBefore listingBench.clock.manifestStamp
  have missing (r : Registry) (stamp : String) :
      r.fate stamp (.error .notFound) = .skipped (ManifestFileError.file .notFound).message := rfl
  have new := scaffold_published listingBench.clock.dayBefore listingBench.clock.manifestStamp
  rw [← read_borrowed] at thief
  rw [← read_scaffold] at new
  rw [first, outcomes_of_skipped thief,
    outcomes_of_skipped ((congrArg _ read_absent).trans (missing _ _)), outcomes_of_published new]
  rfl

/-- A file with an id that the demo manifest owns and one that is missing are skipped. The first of
them is published where no demo manifest stands. -/
theorem borrowed_file_leaves_no_trace :
    let paths := ["thief.json", "none.json", "new.json"]
    let outcomes := (start true listingBench.clock).outcomes listedContents
      listingBench.clock.manifestStamp paths
    let opened := onWorkbench (fromFiles Manifest.benchJournal true paths) listingBench
    let again := onWorkbench (fromFiles Manifest.benchJournal true ["new.json"]) listingBench
    listingBench.Holds Manifest.benchJournal listedContents paths ∧
      kept outcomes = [⟨"new.json", .published (Manifest.scaffold "0")⟩] ∧
      outcomes.map (·.path) = paths ∧
      opened.2.files.contentAt ⟨"nexus.log"⟩ = Text.encode (String.join
        (outcomes.map fun o => Journal.line listingBench.clock.journalStamp o.note)) ∧
      SameButStamps opened.1 again.1 ∧
      SameButStamps opened.1 ((start true (.atInstant 1)).run [⟨"1", Manifest.scaffold "0"⟩]) ∧
      ∃ m, (onWorkbench (fromFiles Manifest.benchJournal false ["thief.json"])
        listingBench).1.manifests = [m] := by
  have holds := listingBench_holds
  have new : listingBench.Holds Manifest.benchJournal listedContents ["new.json"] :=
    fun p mem => listingBench_holds p (List.mem_of_mem_tail (List.mem_of_mem_tail mem))
  have kept := kept_listed
  have before : listingBench.files.contentAt ⟨"nexus.log"⟩ = .empty := rfl
  have home : listingBench.files.HasHome := rfl
  have writable : (listingBench.files.perform (.append ⟨"nexus.log"⟩ .empty)).1 = .ok () := rfl
  have passes :
      (onWorkbench (validateFile Manifest.benchJournal "thief.json" false) listingBench).1 =
        .ok true := by
    have read : listingBench.files.read (Path.ofText "thief.json") = .ok borrowed.content := rfl
    have valid : borrowed.validate.isEmpty = true := by decide +kernel
    simp only [validateFile_answer, read, ofContent_borrowed, valid]
  -- nothing else of the bench is looked at, least of all what opening a terminal makes of it
  generalize listingBench = w at holds new kept before home writable passes ⊢
  obtain ⟨-, ⟨listed, -, journal⟩, without, offers, alone⟩ :=
    skipped_files_leave_no_trace holds true
  have fewer := congrArg (List.map FileOutcome.path) kept
  refine ⟨holds, kept, listed, ?_, ?_, ?_, (alone "thief.json" false).mpr passes⟩
  · rw [journal ⟨"nexus.log"⟩ rfl home writable, before, ByteArray.empty_append]
  · have same := without Manifest.benchJournal w
    rw [fewer] at same
    exact (same new).1
  · refine (offers (.atInstant 1) [⟨"1", Manifest.scaffold "0"⟩] ?_).2
    rw [← filterMap_kept, kept]
    rfl

end Registry

end CommandDeck
