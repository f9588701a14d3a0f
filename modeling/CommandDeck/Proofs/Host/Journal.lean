import CommandDeck.CommandLine.Commands
import CommandDeck.Proofs.Host.Workbench

/-!
# The journal on a workbench

A file to which something can be added holds afterwards what it held before and the addition, and can be
added to again. So the journal, if it can be written at all, grows by one line for each note, in the order of
the notes.
-/

namespace CommandDeck

namespace FileTree

variable {t : FileTree} {p : Path} {a : Address} {name : String}

theorem Names.toOption_read (names : Names t p a name) :
    (t.read p).toOption = t.fileAt? a name := by
  cases found : t.fileAt? a name with
  | some content =>
    rw [names.read found]
    rfl
  | none =>
    cases read : t.read p with
    | error e => rfl
    | ok content =>
      obtain ⟨b, other, names', file⟩ := read_ok read
      cases names.place.symm.trans names'.place
      rw [found] at file
      cases file

/-- An addition goes behind what stands at the place of the path, if no folder does. -/
theorem Names.append (names : Names t p a name) (free : (t.held a).folder? name = none)
    (more : ByteArray) :
    t.perform (.append p more) =
      (.ok (), t.put a name (.file ((t.fileAt? a name).getD .empty ++ more))) := by
  unfold perform attempt writeWith
  simp only [names.located, if_neg names.ending]
  cases there : (t.held a).get? name with
  | none =>
    have absent : t.fileAt? a name = none := by rw [fileAt?_eq, Entries.file?, there]
    simp only [lookUp_ok.mpr ⟨names.short, there⟩, absent]
  | some node =>
    cases node with
    | file content =>
      have held : t.fileAt? a name = some content := by rw [fileAt?_eq, Entries.file?, there]
      simp only [lookUp_ok.mpr ⟨names.short, there⟩, held]
    | folder inner =>
      rw [Entries.folder?, there] at free
      cases free

/-- An addition to the file can be made. -/
def Accepts (t : FileTree) (p : Path) : Prop :=
  ∃ a name, Names t p a name ∧ (t.held a).folder? name = none

theorem accepts_of_append {more : ByteArray} (done : (t.perform (.append p more)).1 = .ok ()) :
    t.Accepts p := by
  unfold perform attempt at done
  simp only at done
  split at done
  · rename_i written
    obtain ⟨a, name, names, free, -⟩ := writeWith_ok written
    exact ⟨a, name, names, free⟩
  · cases done

/-- What the file holds, which is nothing where there is none. -/
def contentAt (t : FileTree) (p : Path) : ByteArray := (t.read p).toOption.getD .empty

theorem Accepts.append (h : t.Accepts p) (home : t.HasHome) (more : ByteArray) :
    (t.perform (.append p more)).2.contentAt p = t.contentAt p ++ more ∧
      (t.perform (.append p more)).2.Accepts p ∧ (t.perform (.append p more)).2.HasHome := by
  obtain ⟨a, name, names, free⟩ := h
  have grown := append_extends (t := t) p more
  have names' := names.after grown
  have written := written_put ((t.fileAt? a name).getD .empty ++ more) (names.folder home) free
  rw [names.append free] at grown names' ⊢
  have found := written.files a name
  rw [if_pos ⟨rfl, rfl⟩] at found
  refine ⟨?_, ⟨a, name, names', ?_⟩, grown.home home⟩
  · rw [contentAt, contentAt, names'.toOption_read, names.toOption_read, found, Option.getD_some]
  · rw [fileAt?_eq, Entries.file?_eq_some] at found
    rw [Entries.folder?, found]

end FileTree

open CommandLine (noteAll)

namespace Workbench

variable {j : Journal} {w : Workbench}

theorem noteAll_cons (j : Journal) (n : Note) (rest : List Note) (w : Workbench) :
    onWorkbench (noteAll j (n :: rest)) w =
      onWorkbench (noteAll j rest) (onWorkbench (j.note n) w).2 := rfl

/-- A journal that can be written grows by the lines of the notes. -/
theorem contentAt_noteAll {q : Path} (journal : j.file? = some q) (accepts : w.files.Accepts q)
    (home : w.files.HasHome) (notes : List Note) :
    (onWorkbench (noteAll j notes) w).2.files.contentAt q = w.files.contentAt q ++
      Text.encode (String.join (notes.map (Journal.line w.clock.journalStamp))) := by
  induction notes generalizing w with
  | nil =>
    change w.files.contentAt q = w.files.contentAt q ++ ByteArray.empty
    rw [ByteArray.append_empty]
  | cons n rest ih =>
    obtain ⟨files, clock⟩ := note_keeps j n w
    have line := accepts.append home (Text.encode (Journal.line w.clock.journalStamp n))
    have entered : (onWorkbench (j.note n) w).2.files = (w.files.perform
        (.append q (Text.encode (Journal.line w.clock.journalStamp n)))).2 := by
      rw [files, noted, journal]
    rw [← entered] at line
    obtain ⟨grown, accepts, home⟩ := line
    rw [noteAll_cons, ih accepts home, grown, clock, ByteArray.append_assoc, List.map_cons,
      String.join_cons]
    exact congrArg _ String.toByteArray_append.symm

/-- The files at some paths hold these contents, and go on to do so whatever is noted in the journal. -/
def Holds (w : Workbench) (j : Journal) (contents : String → Except FileError ByteArray)
    (paths : List String) : Prop :=
  ∀ p ∈ paths, ∀ notes, (onWorkbench (noteAll j notes) w).2.files.read (Path.ofText p) = contents p

namespace Holds

variable {contents : String → Except FileError ByteArray} {paths : List String} {p : String}

theorem read (h : w.Holds j contents paths) (mem : p ∈ paths) :
    w.files.read (Path.ofText p) = contents p := h p mem []

theorem note (h : w.Holds j contents (p :: paths)) (n : Note) :
    (onWorkbench (j.note n) w).2.Holds j contents paths :=
  fun other mem notes => h other (List.mem_cons_of_mem p mem) (n :: notes)

end Holds

end Workbench

end CommandDeck
