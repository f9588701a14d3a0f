import CommandDeck.Proofs.Host.Disk
import CommandDeck.Proofs.Manifest.SavedFile

/-!
# Saving replaces a file or spares it

A manifest is saved in three steps: folders are made on the way to its file, a draft is written beside
the file, and the draft is moved. Whichever of them fails, and however far it has come, the file is as it
was. When all are done the file is the document and the draft is gone. No other file changes.
-/

namespace CommandDeck

namespace Manifest

/-- The folders on the way to the file at a path, the nearest first. -/
def foldersOf (p : Path) : List Path := p.parent?.toList.flatMap Path.ancestry

/-- What may have become of a file tree in which the folders on the way were made. -/
inductive SaveOutcome (m : Manifest) (p : Path) (made : FileTree) :
    Except FileError Unit → FileTree → Prop
  | undone (e : FileError) : SaveOutcome m p made (.error e) made
  | drafted (e : FileError) {part : ByteArray} {t : FileTree}
      (wrote : made.writeWith (draftPath p) (fun _ => part) = .ok t) : SaveOutcome m p made (.error e) t
  | moved {drafted t : FileTree}
      (wrote : made.writeWith (draftPath p) (fun _ => m.content) = .ok drafted)
      (moved : drafted.move (draftPath p) p = .ok t) : SaveOutcome m p made (.ok ()) t

section Outcome

variable (m : Manifest) (p : Path)

theorem replace_outcome (d : Disk) {answer : Except FileError Unit} {d' : Disk}
    (run : onDisk (performAll [.write (draftPath p) m.content, .move (draftPath p) p]) d =
      (answer, d')) : SaveOutcome m p d.files answer d'.files := by
  rcases d.files.performUnder_write (draftPath p) m.content d.fault? with
    ⟨drafted, wrote, done⟩ | ⟨e, t, failed, left⟩
  · rw [Disk.performAll_done _ done] at run
    rcases drafted.performUnder_move (draftPath p) p (d.left drafted).fault? with
      ⟨t, moved, done⟩ | ⟨e, failed⟩
    · rw [Disk.performAll_done _ done] at run
      cases run
      exact .moved wrote moved
    · rw [Disk.performAll_failed _ failed] at run
      cases run
      exact .drafted e wrote
  · rw [Disk.performAll_failed _ failed] at run
    cases run
    obtain rfl | ⟨part, wrote⟩ := left
    · exact .undone e
    · exact .drafted e wrote

/-- Some of the folders on the way have been made, and none where the last of them was there. -/
theorem saveSteps_outcome (d : Disk) {answer : Except FileError Unit} {d' : Disk}
    (run : onDisk (performAll (m.saveSteps p)) d = (answer, d')) :
    ∃ made, FileTree.Raised (foldersOf p) d.files made ∧
      ((∀ q ∈ p.parent?, d.files.isFolder q) → made = d.files) ∧
      SaveOutcome m p made answer d'.files := by
  unfold saveSteps at run
  unfold foldersOf
  cases parent : p.parent? with
  | none =>
    rw [parent] at run
    exact ⟨d.files, .refl, fun _ => rfl, replace_outcome m p d run⟩
  | some q =>
    rw [parent] at run
    obtain ⟨raised, there⟩ := d.files.performUnder_makeFolders q d.fault?
    rw [Option.toList_some, List.flatMap_singleton]
    refine ⟨_, raised, fun all => there (all q rfl), ?_⟩
    rcases made : d.files.performUnder (.makeFolders q) d.fault? with ⟨e | _, files⟩
    · rw [Option.toList_some, List.map_singleton, List.singleton_append,
        Disk.performAll_failed _ made] at run
      cases run
      exact .undone e
    · rw [Option.toList_some, List.map_singleton, List.singleton_append,
        Disk.performAll_done _ made] at run
      exact replace_outcome m p (d.left files) run

end Outcome

/-- What a save leaves that fails. Every file but the draft is as it was, the one at the path with them.
Where the folder of the file was there, or the path takes no step back, the same stands at the path
whatever it was, and else a folder may have been made there. -/
structure Spared (p : Path) (t t' : FileTree) : Prop where
  spares : FileTree.Spares (t.placeOf (draftPath p)) t t'
  same : (∀ q ∈ p.parent?, t.isFolder q) ∨ ".." ∉ p.steps →
    t'.nodeAt? (t.placeOf p) = t.nodeAt? (t.placeOf p)

/-- What a save leaves that is done. -/
structure Replaced (m : Manifest) (p : Path) (t t' : FileTree) : Prop
    extends FileTree.Extends t t' where
  read : t'.read p = .ok (Text.encode (m.toText ++ "\n"))
  gone : t'.find (draftPath p) = .error .notFound
  others : ∀ a name, (a, some name) ≠ t.placeOf (draftPath p) → (a, some name) ≠ t.placeOf p →
    t'.fileAt? a name = t.fileAt? a name

section Places

variable {p : Path} {t t' : FileTree}

/-- Where the same stands under the name of a path, the same stands in its place. -/
theorem same_at_place {a : Address} {name : String}
    (place : t.placeOf p = (a, some name) ∨ t.placeOf p = (a ++ [name], none))
    (same : t'.nodeAt? (a, some name) = t.nodeAt? (a, some name)) :
    t'.nodeAt? (t.placeOf p) = t.nodeAt? (t.placeOf p) := by
  rcases place with place | place
  · rw [place, same]
  · rw [place, FileTree.nodeAt?_concat same]

theorem draft_place (t : FileTree) (named : p.name?.isSome) :
    ∃ a name draft, draft ≠ name ∧ t.placeOf (draftPath p) = (a, some draft) ∧
      (t.placeOf p = (a, some name) ∨ t.placeOf p = (a ++ [name], none)) :=
  t.placeOf_beside named (by decide) (by decide)

theorem draft_beside (named : p.name?.isSome) : (draftPath p).Beside p :=
  Path.withExtension_beside named (by decide) (by decide)

theorem draft_elsewhere (t : FileTree) (named : p.name?.isSome) :
    t.placeOf (draftPath p) ≠ t.placeOf p := by
  obtain ⟨a, name, draft, apart, place, place' | place'⟩ := draft_place t named
  · rw [place, place']
    exact fun same => apart (Option.some.inj (congrArg Prod.snd same))
  · rw [place, place']
    exact fun same => nomatch congrArg Prod.snd same

theorem same_of_drafted (named : p.name?.isSome) {part : ByteArray}
    (wrote : t.writeWith (draftPath p) (fun _ => part) = .ok t') :
    t'.nodeAt? (t.placeOf p) = t.nodeAt? (t.placeOf p) := by
  obtain ⟨a, name, draft, apart, place, place'⟩ := draft_place t named
  obtain ⟨b, k, names, -, old, rfl⟩ := FileTree.writeWith_ok wrote
  cases names.place.symm.trans place
  exact same_at_place place' (t.nodeAt?_put_other _ (Ne.symm apart))

/-- A path without steps back goes through no folder that stands in the place of its file. -/
theorem same_of_raised (named : p.name?.isSome) (forth : ".." ∉ p.steps)
    (raised : FileTree.Raised (foldersOf p) t t') :
    t'.nodeAt? (t.placeOf p) = t.nodeAt? (t.placeOf p) := by
  obtain ⟨a, name, draft, apart, place, place'⟩ := draft_place t named
  refine same_at_place place' (FileTree.nodeAt?_raised raised ?_)
  intro q mem b k above
  obtain ⟨parent, before, mem⟩ := List.mem_flatMap.mp mem
  have shorter := t.placeOf_above "json.tmp" named (by decide) (draft_beside named).named forth
    (Option.mem_toList.mp before) mem above
  rw [← draftPath, place] at shorter
  exact shorter

theorem places_of_move (named : p.name?.isSome) (moved : t.move (draftPath p) p = .ok t') :
    (t.placeOf (draftPath p)).1 = (t.placeOf p).1 ∧
      (t.placeOf (draftPath p)).2 ≠ (t.placeOf p).2 := by
  obtain ⟨b, k, c, onto, -, -, names, -⟩ := FileTree.move_ok moved
  obtain ⟨a, name, draft, apart, place, place' | place'⟩ := draft_place t named
  · rw [place, place']
    exact ⟨rfl, fun same => apart (Option.some.inj same)⟩
  · rw [names.place] at place'
    cases place'

end Places

section Run

variable {m : Manifest} {p : Path}

theorem spared_of_error (named : p.name?.isSome) {t made t' : FileTree} {e : FileError}
    (raised : FileTree.Raised (foldersOf p) t made)
    (there : (∀ q ∈ p.parent?, t.isFolder q) → made = t)
    (outcome : SaveOutcome m p made (.error e) t') : Spared p t t' := by
  have grown := FileTree.raised_extends raised
  have same : (∀ q ∈ p.parent?, t.isFolder q) ∨ ".." ∉ p.steps →
      made.nodeAt? (t.placeOf p) = t.nodeAt? (t.placeOf p) := by
    rintro (folder | forth)
    · rw [there folder]
    · exact same_of_raised named forth raised
  cases outcome with
  | undone => exact ⟨FileTree.spares_raised raised, same⟩
  | drafted _ wrote =>
    have spares := FileTree.spares_writeWith wrote
    have kept := same_of_drafted named wrote
    rw [grown.placeOf] at spares kept
    exact ⟨(FileTree.spares_raised raised).trans spares, fun way => kept.trans (same way)⟩

theorem replaced_of_ok (named : p.name?.isSome) {t made t' : FileTree}
    (raised : FileTree.Raised (foldersOf p) t made) (outcome : SaveOutcome m p made (.ok ()) t') :
    Replaced m p t t' := by
  have grown := FileTree.raised_extends raised
  cases outcome with
  | @moved drafted _ wrote moved =>
    have spares := FileTree.spares_writeWith wrote
    have grown' := grown.trans spares.toExtends
    obtain ⟨beside, apart⟩ := places_of_move named moved
    have draft := grown'.placeOf (draftPath p)
    have target := grown'.placeOf p
    rw [grown.placeOf] at spares
    refine ⟨grown'.trans (FileTree.move_extends moved), read_moved wrote moved,
      FileTree.find_moved moved beside apart, fun a name elsewhere elsewhere' => ?_⟩
    calc t'.fileAt? a name
      _ = drafted.fileAt? a name :=
        FileTree.fileAt?_move moved (fun same => elsewhere (same.trans draft))
          fun same => elsewhere' (same.trans target)
      _ = made.fileAt? a name := spares.files a name elsewhere
      _ = t.fileAt? a name := (FileTree.spares_raised raised).files a name elsewhere

theorem save_onDisk (m : Manifest) (p : Path) (d : Disk) :
    onDisk (m.save p) d =
      match onDisk (performAll (m.saveSteps p)) d with
      | (.ok (), d') => (.ok (), d')
      | (.error e, d') => (.error (.file e), d') := by
  rw [save, onDisk_bind]
  rcases onDisk (performAll (m.saveSteps p)) d with ⟨_ | _, d'⟩
  · rfl
  · rfl

/-- A save that fails spares the file, wherever it fails, and one that is done replaces it by the document,
which is loaded as an equal manifest where it loses nothing. The draft stands beside the file. -/
theorem save_replaces_or_spares (named : p.name?.isSome) {d d' : Disk}
    {answer : Except ManifestFileError Unit} (saved : onDisk (m.save p) d = (answer, d')) :
    (draftPath p).Beside p ∧ d.files.placeOf (draftPath p) ≠ d.files.placeOf p ∧
      match answer with
      | .error _ => Spared p d.files d'.files
      | .ok () => Replaced m p d.files d'.files ∧
          (Text.isBlankText m.namespaceName = false → m.IsIntegral →
            ∃ n, (onDisk (load p) d').1 = .ok n ∧ m.agrees n = true) := by
  refine ⟨draft_beside named, draft_elsewhere d.files named, ?_⟩
  rw [save_onDisk] at saved
  rcases run : onDisk (performAll (m.saveSteps p)) d with ⟨e | ⟨⟨⟩⟩, left⟩
  · obtain ⟨made, raised, there, outcome⟩ := saveSteps_outcome m p d run
    rw [run] at saved
    cases saved
    exact spared_of_error named raised there outcome
  · obtain ⟨made, raised, -, outcome⟩ := saveSteps_outcome m p d run
    rw [run] at saved
    cases saved
    have replaced := replaced_of_ok named raised outcome
    refine ⟨replaced, fun visible integral => ⟨m.plainZero, ?_, agrees_plainZero m⟩⟩
    exact (congrArg ofContent replaced.read).trans (ofContent_content visible integral)

/-- A disk on which a manifest has been saved before, with the faults that the next steps meet. -/
def benchDisk (faults : List (Option Fault)) : Disk :=
  ⟨⟨[("ops.json.tmp", .file (Text.encode "old"))], []⟩, .atInstant 0, faults⟩

/-- A manifest saved where one has been saved before. -/
def savedAgain (faults : List (Option Fault)) : Except ManifestFileError Unit × Disk :=
  onDisk ((Manifest.scaffold "ops").save (Path.ofText "ops.json.tmp")) (benchDisk faults)

/-- The write of the draft breaks off after three octets, or nothing fails. -/
theorem standing_file_is_spared_or_replaced :
    (∃ e d', savedAgain [some ⟨.other 28, some 3⟩] = (.error e, d') ∧
      Spared (Path.ofText "ops.json.tmp") (benchDisk []).files d'.files ∧
      d'.files.read (Path.ofText "ops.json.json.tmp") = .ok (Text.encode "\x7b\n ")) ∧
    ∃ d', savedAgain [] = (.ok (), d') ∧
      Replaced (Manifest.scaffold "ops") (Path.ofText "ops.json.tmp") (benchDisk []).files d'.files ∧
      ∃ n, (onDisk (load (Path.ofText "ops.json.tmp")) d').1 = .ok n ∧
        (Manifest.scaffold "ops").agrees n = true := by
  have named : (Path.ofText "ops.json.tmp").name?.isSome := by decide +kernel
  have draft : (savedAgain [some ⟨.other 28, some 3⟩]).2.files.read
      (Path.ofText "ops.json.json.tmp") = .ok (Text.encode "\x7b\n ") := by decide +kernel
  have torn : (savedAgain [some ⟨.other 28, some 3⟩]).1.isOk = false := by decide +kernel
  have done : (savedAgain []).1.isOk := by decide +kernel
  constructor
  · rcases run : savedAgain [some ⟨.other 28, some 3⟩] with ⟨e | _, d'⟩
    · rw [run] at draft
      exact ⟨e, d', rfl, (save_replaces_or_spares named run).2.2, draft⟩
    · rw [run] at torn
      cases torn
  · rcases run : savedAgain [] with ⟨_ | ⟨⟨⟩⟩, d'⟩
    · rw [run] at done
      cases done
    · obtain ⟨replaced, loads⟩ := (save_replaces_or_spares named run).2.2
      exact ⟨d', rfl, replaced, loads (by decide +kernel) fun c mem => nomatch mem⟩

/-- The folder that is made for the step back stands in the place of the file, and the move fails. -/
theorem step_back_makes_folder_of_file :
    let p := Path.ofText "x/../x"
    let d : Disk := ⟨⟨[], []⟩, .atInstant 0, []⟩
    let r := onDisk ((Manifest.scaffold "ops").save p) d
    p.name?.isSome ∧ r.1.isOk = false ∧ (d.files.nodeAt? (d.files.placeOf p)).isNone ∧
      r.2.files.isFolder p := by
  decide +kernel

end Run

end Manifest

end CommandDeck
