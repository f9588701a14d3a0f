import CommandDeck.Proofs.Storage.Write

/-!
# What a move changes

A move takes a file away and puts it where another path leads. No folder comes or goes by it. So a file
that has been moved within its folder reads at the new place as it read at the old one.
-/

namespace CommandDeck

namespace Entries

theorem get?_erase (es : Entries) (name other : String) :
    (es.erase name).get? other = if other = name then none else es.get? other := by
  induction es with
  | nil => exact (ite_self none).symm
  | cons e es ih =>
    obtain ⟨first, node⟩ := e
    rw [erase] at ih ⊢
    by_cases gone : first = name
    · rw [List.filter_cons_of_neg (by simpa using gone), ih, get?_cons, gone]
      by_cases same : other = name
      · rw [if_pos same, if_pos same]
      · rw [if_neg same, if_neg same, if_neg same]
    · rw [List.filter_cons_of_pos (by simpa using gone), get?_cons, ih, get?_cons]
      by_cases same : other = first
      · subst same
        rw [if_pos rfl, if_neg gone, if_pos rfl]
      · rw [if_neg same, if_neg same]

/-- What is taken away is no folder, so the folders stay. -/
theorem folder?_erase {es : Entries} {name : String} (fresh : es.folder? name = none)
    (other : String) : (es.erase name).folder? other = es.folder? other := by
  by_cases same : other = name
  · subst same
    rw [fresh, folder?, get?_erase, if_pos rfl]
  · rw [folder?, folder?, get?_erase, if_neg same]

/-- Where a change keeps the folders in the folder that it changes, a folder stands at an address after
it exactly when one stood there before. -/
theorem isSome_at?_change {f : Entries → Entries} {a : Address} {root : Entries}
    (keeps : ∀ es, at? a root = some es → ∀ name, (f es).folder? name = es.folder? name)
    (b : Address) : (at? b (change f a root)).isSome = (at? b root).isSome := by
  induction a generalizing root b with
  | nil =>
    cases b with
    | nil => rfl
    | cons k b => rw [at?_cons, change, keeps root rfl, ← at?_cons]
  | cons m a ih =>
    cases found : root.folder? m with
    | none => rw [change_of_no_folder found]
    | some inner =>
      rw [change_of_folder found]
      cases b with
      | nil => rfl
      | cons k b =>
        by_cases same : k = m
        · subst same
          rw [at?_cons, folder?_put_self, Option.bind_some, at?_cons, found, Option.bind_some]
          exact ih (fun es hes => keeps es (by rw [at?_cons, found]; exact hes)) b
        · rw [at?_cons, folder?_put_other root _ same, ← at?_cons]

end Entries

namespace FileTree

variable {t t' : FileTree}

theorem isSome_folder?_erase {a : Address} {name : String}
    (fresh : (t.held a).folder? name = none) (b : Address) :
    ((t.erase a name).folder? b).isSome = (t.folder? b).isSome :=
  Entries.isSome_at?_change
    (fun _ there other => Entries.folder?_erase (held_of_folder there ▸ fresh) other) b

theorem extends_erase {a : Address} {name : String} (fresh : (t.held a).folder? name = none) :
    Extends t (t.erase a name) :=
  ⟨rfl, fun {b} there => (isSome_folder?_erase fresh b).trans there⟩

theorem held_erase_fresh {a b : Address} {name onto : String}
    (fresh : (t.held a).folder? name = none) (free : (t.held b).folder? onto = none) :
    ((t.erase a name).held b).folder? onto = none := by
  rw [← folder?_concat, ← Option.isNone_iff_eq_none, ← Option.not_isSome,
    isSome_folder?_erase fresh, folder?_concat, free]
  rfl

/-- A move that is done takes a file from the place of one path and puts it in that of the other. -/
theorem move_ok {source target : Path} (h : t.move source target = .ok t') :
    ∃ a name b onto content, Names t source a name ∧ Names t target b onto ∧
      t.fileAt? a name = some content ∧ (t.held b).folder? onto = none ∧
      t' = (t.erase a name).put b onto (.file content) := by
  unfold move at h
  cases from? : t.locate source with
  | error e =>
    rw [from?] at h
    cases h
  | ok l =>
    cases to? : t.locate target with
    | error e =>
      rw [from?, to?] at h
      cases h
    | ok k =>
      rw [from?, to?] at h
      obtain ⟨b, fs, onto?⟩ := k
      obtain ⟨a, es, _ | name⟩ := l
      · cases onto? <;> cases h
      obtain _ | onto := onto?
      · cases h
      obtain rfl : es = t.held a := locate_held from?
      obtain rfl : fs = t.held b := locate_held to?
      dsimp only at h
      split at h
      · cases h
      · cases h
      · cases h
      · rename_i content found
        split at h
        · cases h
        · rename_i there free
          obtain ⟨short, file⟩ := lookUp_file.mp found
          obtain ⟨short', got⟩ := lookUp_ok.mp free
          split at h
          · cases h
          · rename_i slash
            obtain ⟨ending, ending'⟩ := not_or.mp slash
            split at h
            · cases h
            · rename_i noFolder
              cases h
              refine ⟨a, name, b, onto, content, ⟨from?, short, ending⟩, ⟨to?, short', ending'⟩,
                by rw [fileAt?_eq, file], ?_, rfl⟩
              rw [Option.eq_none_iff_forall_ne_some]
              intro inner folder
              exact noFolder inner (got ▸ Entries.folder?_eq_some.mp folder)

theorem folder?_of_fileAt? {a : Address} {name : String} {content : ByteArray}
    (file : t.fileAt? a name = some content) : (t.held a).folder? name = none := by
  rw [fileAt?_eq, Entries.file?_eq_some] at file
  rw [Entries.folder?, file]

theorem move_extends {source target : Path} (h : t.move source target = .ok t') :
    Extends t t' := by
  obtain ⟨a, name, b, onto, content, -, -, file, free, rfl⟩ := move_ok h
  have fresh := folder?_of_fileAt? file
  exact (extends_erase fresh).trans (extends_put _ (held_erase_fresh fresh free))

/-- A file that has been moved within its folder reads as it did before. -/
theorem read_move {source target : Path} (beside : (t.placeOf source).1 = (t.placeOf target).1)
    (h : t.move source target = .ok t') :
    ∃ content, t.read source = .ok content ∧ t'.read target = .ok content := by
  have grown := move_extends h
  obtain ⟨a, name, b, onto, content, names, names', file, free, rfl⟩ := move_ok h
  rw [names.place, names'.place] at beside
  obtain rfl : a = b := beside
  have fresh := folder?_of_fileAt? file
  have there := (extends_erase fresh).folders (isSome_of_fileAt? file)
  have written := written_put content there (held_erase_fresh fresh free)
  refine ⟨content, names.read file, (names'.after grown).read ?_⟩
  rw [written.files, if_pos ⟨rfl, rfl⟩]

end FileTree

end CommandDeck
