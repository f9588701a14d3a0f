import CommandDeck.Host.Workbench
import CommandDeck.Journal
import CommandDeck.Proofs.Storage.Write

/-!
# Actions on a workbench

What an action on a workbench answers and what it leaves behind. Steps are performed one after the other
on the files; a note goes to the journal's file and to no other.
-/

namespace CommandDeck

theorem Text.decode?_encode (text : String) : Text.decode? (Text.encode text) = some text := by
  simp only [Text.decode?, Text.encode, String.fromUTF8?]
  exact dif_pos text.isValidUTF8

/-- The answer of an action on a workbench, and the workbench after it. -/
def onWorkbench {α : Type} (action : StateM Workbench α) (w : Workbench) : α × Workbench := action w

theorem onWorkbench_bind {α β : Type} (action : StateM Workbench α) (next : α → StateM Workbench β)
    (w : Workbench) :
    onWorkbench (action >>= next) w =
      onWorkbench (next (onWorkbench action w).1) (onWorkbench action w).2 := rfl

namespace Workbench

variable (w : Workbench)

theorem performAll_cons (step : FileStep) (rest : List FileStep) :
    onWorkbench (performAll (step :: rest)) w =
      match w.files.perform step with
      | (.error e, files) => (.error e, { w with files := files })
      | (.ok (), files) => onWorkbench (performAll rest) { w with files := files } := by
  rcases performed : w.files.perform step with ⟨_ | _, files⟩
  · simp [onWorkbench, performAll, bind, StateT.bind, Storage.perform, performed]
    rfl
  · simp [onWorkbench, performAll, bind, StateT.bind, Storage.perform, performed]

variable {w}

/-- Steps that are done after folders have been made are done on a tree with more folders. -/
theorem makeFolders_done {folders : List Path} {rest : List FileStep} {w' : Workbench}
    (done : onWorkbench (performAll (folders.map FileStep.makeFolders ++ rest)) w = (.ok (), w')) :
    ∃ files, FileTree.Extends w.files files ∧
      onWorkbench (performAll rest) { w with files := files } = (.ok (), w') := by
  induction folders generalizing w with
  | nil => exact ⟨w.files, .refl _, done⟩
  | cons folder folders ih =>
    have grown := FileTree.perform_makeFolders_extends (t := w.files) folder
    rw [List.map_cons, List.cons_append, performAll_cons] at done
    revert done grown
    rcases w.files.perform (.makeFolders folder) with ⟨_ | ⟨⟨⟩⟩, files⟩
    · intro done
      cases done
    · intro done grown
      obtain ⟨last, more, done⟩ := ih done
      exact ⟨last, grown.trans more, done⟩

/-- A file that has been written reads as it was written, and no folder is gone. -/
theorem write_done (home : w.files.HasHome) {p : Path} {content : ByteArray} {w' : Workbench}
    (done : onWorkbench (performAll [.write p content]) w = (.ok (), w')) :
    w'.files.read p = .ok content ∧ FileTree.Extends w.files w'.files := by
  simp only [performAll_cons, FileTree.perform, FileTree.attempt] at done
  cases wrote : w.files.writeWith p fun _ => content with
  | error e =>
    rw [wrote] at done
    cases done
  | ok files =>
    rw [wrote] at done
    cases done
    exact ⟨FileTree.read_writeWith home wrote, FileTree.writeWith_extends wrote⟩

/-- Showing a note changes neither the files nor the clock. -/
theorem shown_keeps (j : Journal) (n : Note) (w : Workbench) :
    (onWorkbench (j.shown n) w).2.files = w.files ∧
      (onWorkbench (j.shown n) w).2.clock = w.clock := by
  rw [Journal.shown]
  split
  · exact ⟨rfl, rfl⟩
  · exact ⟨rfl, rfl⟩

/-- The files after a note: a line has been added to the journal, where there is one. -/
def noted (w : Workbench) (j : Journal) (n : Note) : FileTree :=
  match j.file? with
  | none => w.files
  | some q => (w.files.perform (.append q (Text.encode (Journal.line w.clock.journalStamp n)))).2

theorem note_keeps (j : Journal) (n : Note) (w : Workbench) :
    (onWorkbench (j.note n) w).2.files = w.noted j n ∧
      (onWorkbench (j.note n) w).2.clock = w.clock := by
  have shown := shown_keeps j n { w with files := w.noted j n }
  have entered : onWorkbench (j.note n) w =
      onWorkbench (j.shown n) { w with files := w.noted j n } := by
    obtain ⟨file?, verbosity, colours⟩ := j
    cases file? with
    | none => rfl
    | some q => rfl
  rw [entered]
  exact shown

/-- The note of a success changes the files at most by an addition to the journal. -/
theorem success_files (j : Journal) (message : String) :
    (onWorkbench (j.success message) w).2.files = w.files ∨
      ∃ q ∈ j.file?, ∃ more,
        (onWorkbench (j.success message) w).2.files = (w.files.perform (.append q more)).2 := by
  rw [Journal.success, (note_keeps j _ w).1, noted]
  cases j.file? with
  | none => exact .inl rfl
  | some q => exact .inr ⟨q, rfl, _, rfl⟩

theorem success_extends (j : Journal) (message : String) :
    FileTree.Extends w.files (onWorkbench (j.success message) w).2.files := by
  rcases success_files j message with same | ⟨q, -, more, appended⟩
  · rw [same]
    exact .refl _
  · rw [appended]
    exact FileTree.append_extends q more

/-- The note of a success leaves every file at another place as it is. -/
theorem read_success {j : Journal} (message : String) {p : Path}
    (apart : ∀ q ∈ j.file?, w.files.placeOf q ≠ w.files.placeOf p) {content : ByteArray}
    (before : w.files.read p = .ok content) :
    (onWorkbench (j.success message) w).2.files.read p = .ok content := by
  rcases success_files j message with same | ⟨q, journal, more, appended⟩
  · rw [same, before]
  · rw [appended]
    exact FileTree.read_append_other more (apart q journal) before

end Workbench

end CommandDeck
