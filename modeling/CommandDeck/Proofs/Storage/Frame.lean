import CommandDeck.Proofs.Storage.Move
import CommandDeck.Proofs.Storage.Path

/-!
# What steps leave alone

Making folders changes no file, writing changes one, and a move that is done changes two: a step spares
a tree apart from one place when every file elsewhere is as it was and no folder is gone (`Spares`). At a
place that is not below the folders that are made, and not that of the file that is written, the same
stands as before, file or folder (`nodeAt?`).
-/

namespace CommandDeck

namespace Entries

/-- The file under a name in the folder at an address below these entries. -/
def fileBelow? (es : Entries) (a : Address) (name : String) : Option ByteArray :=
  (at? a es).bind (·.file? name)

theorem fileBelow?_nil (es : Entries) (name : String) : es.fileBelow? [] name = es.file? name := rfl

theorem fileBelow?_cons (es : Entries) (first : String) (a : Address) (name : String) :
    es.fileBelow? (first :: a) name = (es.folder? first).bind (·.fileBelow? a name) := by
  rw [fileBelow?, at?_cons, Option.bind_assoc]
  rfl

/-- What the folder that is changed holds afterwards. -/
theorem at?_change_self (f : Entries → Entries) (a : Address) (root : Entries) :
    at? a (change f a root) = (at? a root).map f := by
  induction a generalizing root with
  | nil => rfl
  | cons first a ih =>
    cases found : root.folder? first with
    | none =>
      rw [change_of_no_folder found, at?_cons, found]
      rfl
    | some inner =>
      rw [change_of_folder found, at?_cons, folder?_put_self, Option.bind_some, at?_cons, found,
        Option.bind_some, ih]

/-- A change in one folder spares every file, but for one name in it, when it does so there. -/
theorem fileBelow?_change {f : Entries → Entries} {a : Address} {root : Entries}
    (except? : Option String)
    (spares : ∀ es, at? a root = some es → ∀ c other, (c = [] → some other ≠ except?) →
      (f es).fileBelow? c other = es.fileBelow? c other)
    {b : Address} {other : String} (elsewhere : b = a → some other ≠ except?) :
    (change f a root).fileBelow? b other = root.fileBelow? b other := by
  -- the induction is on the way to the folder that is changed; a file off the way is not touched
  induction a generalizing root b with
  | nil => exact spares root rfl b other elsewhere
  | cons m a ih =>
    cases found : root.folder? m with
    | none => rw [change_of_no_folder found]
    | some inner =>
      rw [change_of_folder found]
      cases b with
      | nil =>
        by_cases same : other = m
        · subst same
          rw [fileBelow?_nil, fileBelow?_nil, file?_put_folder, file?_of_folder found]
        · exact file?_put_other root _ same
      | cons k b =>
        by_cases same : k = m
        · subst same
          rw [fileBelow?_cons, folder?_put_self, fileBelow?_cons, found, Option.bind_some,
            Option.bind_some]
          refine ih (fun es there => spares es (by rw [at?_cons, found]; exact there)) fun here => ?_
          exact elsewhere (by rw [here])
        · rw [fileBelow?_cons, folder?_put_other root _ same, ← fileBelow?_cons]

/-- A new folder holds no files. -/
theorem fileBelow?_put_folder {es : Entries} {name : String} (absent : es.get? name = none)
    (c : Address) (other : String) :
    (es.put name (.folder [])).fileBelow? c other = es.fileBelow? c other := by
  cases c with
  | nil =>
    by_cases same : other = name
    · subst same
      rw [fileBelow?_nil, fileBelow?_nil, file?_put_folder, file?, absent]
    · exact file?_put_other es _ same
  | cons k c =>
    by_cases same : k = name
    · subst same
      have empty : fileBelow? [] c other = none := by
        cases c <;> rfl
      rw [fileBelow?_cons, folder?_put_self, Option.bind_some, empty, fileBelow?_cons, folder?, absent]
      rfl
    · rw [fileBelow?_cons, folder?_put_other es _ same, ← fileBelow?_cons]

theorem fileBelow?_erase {es : Entries} {name : String} (fresh : es.folder? name = none)
    {c : Address} {other : String} (elsewhere : c = [] → some other ≠ some name) :
    (es.erase name).fileBelow? c other = es.fileBelow? c other := by
  cases c with
  | nil =>
    have apart : other ≠ name := fun same => elsewhere rfl (congrArg some same)
    rw [fileBelow?_nil, fileBelow?_nil, file?, file?, get?_erase, if_neg apart]
  | cons k c => rw [fileBelow?_cons, folder?_erase fresh, ← fileBelow?_cons]

/-- Putting an empty folder changes nothing under a name in a deeper folder. -/
theorem get?_change_folder {name : String} {b : Address} {root : Entries}
    (absent : ∀ es, at? b root = some es → es.get? name = none) {a : Address}
    (deeper : b.length < a.length) (other : String) :
    (at? a (change (·.put name (.folder [])) b root)).bind (·.get? other) =
      (at? a root).bind (·.get? other) := by
  induction b generalizing root a with
  | nil =>
    obtain ⟨k, c, rfl⟩ := List.exists_cons_of_length_pos deeper
    rw [change, at?_cons, at?_cons]
    by_cases same : k = name
    · -- below the new folder there is nothing, as there was below what is missing
      subst same
      rw [folder?_put_self, folder?, absent root rfl]
      cases c <;> rfl
    · rw [folder?_put_other root _ same]
  | cons m b ih =>
    cases found : root.folder? m with
    | none => rw [change_of_no_folder found]
    | some inner =>
      obtain ⟨k, c, rfl⟩ := List.exists_cons_of_length_pos (Nat.zero_lt_of_lt deeper)
      rw [change_of_folder found, at?_cons, at?_cons]
      by_cases same : k = m
      · subst same
        rw [folder?_put_self, found, Option.bind_some, Option.bind_some]
        exact ih (fun es there => absent es (by rw [at?_cons, found]; exact there))
          (Nat.lt_of_succ_lt_succ deeper)
      · rw [folder?_put_other root _ same]

end Entries

namespace FileTree

variable {t t' : FileTree}

/-- Apart from one place every file is as it was, and no folder is gone. -/
structure Spares (place : Address × Option String) (t t' : FileTree) : Prop extends Extends t t' where
  files : ∀ a name, (a, some name) ≠ place → t'.fileAt? a name = t.fileAt? a name

section Spares

variable {place : Address × Option String}

theorem Spares.refl (place : Address × Option String) (t : FileTree) : Spares place t t :=
  ⟨.refl t, fun _ _ _ => rfl⟩

theorem Spares.trans {t₂ : FileTree} (h : Spares place t t') (h' : Spares place t' t₂) :
    Spares place t t₂ :=
  ⟨h.toExtends.trans h'.toExtends, fun a name elsewhere =>
    (h'.files a name elsewhere).trans (h.files a name elsewhere)⟩

theorem spares_put_folder {a : Address} {name : String} (absent : (t.held a).get? name = none) :
    Spares place t (t.put a name (.folder [])) where
  toExtends := extends_put _ (by rw [Entries.folder?, absent])
  files := fun b other _ => by
    refine Entries.fileBelow?_change none (fun es there c other _ => ?_)
      (fun _ => Option.some_ne_none other)
    exact Entries.fileBelow?_put_folder (held_of_folder there ▸ absent) c other

/-- Making folders changes no file. -/
theorem spares_raised {ps : List Path} (h : Raised ps t t') : Spares place t t' := by
  induction h with
  | refl => exact .refl place t
  | tail _ step ih =>
    obtain ⟨p, -, made⟩ := step
    obtain ⟨a, name, -, absent, rfl⟩ := makeFolder_ok made
    exact ih.trans (spares_put_folder absent)

end Spares

theorem spares_writeWith {p : Path} {f : Option ByteArray → ByteArray} (h : t.writeWith p f = .ok t') :
    Spares (t.placeOf p) t t' := by
  obtain ⟨a, name, names, ⟨rfl, -⟩ | ⟨old, written⟩⟩ := writeWith_cases h
  · exact .refl _ t'
  · refine ⟨written.toExtends, fun b other elsewhere => ?_⟩
    rw [names.place] at elsewhere
    rw [written.files, if_neg]
    rintro ⟨rfl, rfl⟩
    exact elsewhere rfl

/-- A move that is done leaves the files at other places than its two as they are. -/
theorem fileAt?_move {source target : Path} (h : t.move source target = .ok t') {c : Address}
    {other : String} (elsewhere : (c, some other) ≠ t.placeOf source)
    (elsewhere' : (c, some other) ≠ t.placeOf target) : t'.fileAt? c other = t.fileAt? c other := by
  obtain ⟨a, name, b, onto, content, names, names', file, free, rfl⟩ := move_ok h
  have fresh := folder?_of_fileAt? file
  rw [names.place] at elsewhere
  rw [names'.place] at elsewhere'
  have put : ((t.erase a name).put b onto (.file content)).fileAt? c other =
      (t.erase a name).fileAt? c other := by
    cases there : (t.erase a name).folder? b with
    | none => rw [put_of_missing there]
    | some es =>
      have written := written_put content (Option.isSome_of_eq_some there)
        (held_erase_fresh fresh free)
      rw [written.files, if_neg]
      rintro ⟨rfl, rfl⟩
      exact elsewhere' rfl
  rw [put]
  refine Entries.fileBelow?_change (some name) (fun es there c other apart => ?_) ?_
  · exact Entries.fileBelow?_erase (held_of_folder there ▸ fresh) apart
  · rintro rfl same
    exact elsewhere (by rw [same])

/-! ### What stands at a place -/

/-- What stands under a name in a folder, or the folder itself where there is no name. -/
def nodeAt? (t : FileTree) : Address × Option String → Option Node
  | (a, some name) => (t.folder? a).bind (·.get? name)
  | (a, none) => (t.folder? a).map .folder

section Places

variable {a : Address} {name other : String}

theorem nodeAt?_eq (t : FileTree) (a : Address) (name : String) :
    t.nodeAt? (a, some name) = (t.held a).get? name := by
  rw [nodeAt?, held]
  cases t.folder? a with
  | none => rfl
  | some es => rfl

/-- Where the same stands under a name, the same folder stands there. -/
theorem nodeAt?_concat (same : t'.nodeAt? (a, some name) = t.nodeAt? (a, some name)) :
    t'.nodeAt? (a ++ [name], none) = t.nodeAt? (a ++ [name], none) := by
  rw [nodeAt?_eq, nodeAt?_eq] at same
  rw [nodeAt?, nodeAt?, folder?_concat, folder?_concat, Entries.folder?, Entries.folder?, same]

theorem nodeAt?_put_other (t : FileTree) (node : Node) (apart : other ≠ name) :
    (t.put a name node).nodeAt? (a, some other) = t.nodeAt? (a, some other) := by
  rw [nodeAt?, nodeAt?, folder?, folder?, put, Entries.at?_change_self]
  cases Entries.at? a t.root with
  | none => rfl
  | some es => exact Entries.get?_put_other es node apart

theorem nodeAt?_erase_self (t : FileTree) (a : Address) (name : String) :
    (t.erase a name).nodeAt? (a, some name) = none := by
  rw [nodeAt?, folder?, erase, Entries.at?_change_self]
  cases Entries.at? a t.root with
  | none => rfl
  | some es => exact (Entries.get?_erase es name name).trans (if_pos rfl)

/-- Making folders above a place changes nothing at it. -/
theorem nodeAt?_raised {ps : List Path} (h : Raised ps t t')
    (above : ∀ p ∈ ps, ∀ b k, t.placeOf p = (b, some k) → b.length < a.length) :
    t'.nodeAt? (a, some name) = t.nodeAt? (a, some name) := by
  induction h with
  | refl => rfl
  | tail before step ih =>
    obtain ⟨p, mem, made⟩ := step
    obtain ⟨b, k, place, absent, rfl⟩ := makeFolder_ok made
    have shorter := above p mem b k ((raised_extends before).placeOf p ▸ place)
    rw [← ih]
    exact Entries.get?_change_folder (fun es there => held_of_folder there ▸ absent) shorter name

/-- Where a folder stands at the path, there is nothing to make. -/
theorem makeFolders_of_folder {p : Path} (there : t.isFolder p) (before : List Path) :
    t.makeFolders (p :: before) = (.ok (), t) := by
  have made : t.makeFolder p = .error .alreadyThere := by
    unfold isFolder find at there
    unfold makeFolder
    cases located : t.locate p with
    | error e => simp [located] at there
    | ok l =>
      obtain ⟨a, es, _ | name⟩ := l
      · rfl
      · simp only [located] at there ⊢
        cases found : lookUp es name with
        | error e => simp [found] at there
        | ok node? =>
          cases node? with
          | none => simp [found] at there
          | some node => rfl
  rw [makeFolders, made]
  simp [there]

/-- After a move within a folder nothing stands where the file stood. -/
theorem find_moved {source target : Path} (h : t.move source target = .ok t')
    (beside : (t.placeOf source).1 = (t.placeOf target).1)
    (apart : (t.placeOf source).2 ≠ (t.placeOf target).2) : t'.find source = .error .notFound := by
  have grown := move_extends h
  obtain ⟨a, name, b, onto, content, names, names', -, -, rfl⟩ := move_ok h
  rw [names.place, names'.place] at beside apart
  obtain rfl : a = b := beside
  have gone : lookUp (((t.erase a name).put a onto (.file content)).held a) name = .ok none := by
    rw [lookUp_ok, ← nodeAt?_eq, nodeAt?_put_other _ _ fun same => apart (congrArg some same),
      nodeAt?_erase_self]
    exact ⟨names.short, rfl⟩
  rw [find, (names.after grown).located]
  simp only [gone]

end Places

end FileTree

end CommandDeck
