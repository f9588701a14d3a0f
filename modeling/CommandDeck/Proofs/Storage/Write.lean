import CommandDeck.Storage.FileStep
import Mathlib.Logic.Relation

/-!
# What a write changes

A file tree is observed through the folders that stand at an address and the files that stand under a
name in a folder. A write puts one file in its place and leaves every folder where it is and every other
file as it is (`Written`), so that a path that led somewhere still leads there. Where no folder
stands nothing is put. From this it follows that a file reads as it was written, if it can be read, and
that a file at another place reads as before.
-/

namespace CommandDeck

namespace Entries

/-- The folder under a name. -/
def folder? (es : Entries) (name : String) : Option Entries :=
  match es.get? name with
  | some (.folder inner) => some inner
  | _ => none

/-- The content of the file under a name. -/
def file? (es : Entries) (name : String) : Option ByteArray :=
  match es.get? name with
  | some (.file content) => some content
  | _ => none

theorem folder?_eq_some {es inner : Entries} {name : String} :
    es.folder? name = some inner ↔ es.get? name = some (.folder inner) := by
  unfold folder?
  cases es.get? name with
  | none => simp
  | some node => cases node <;> simp

theorem file?_eq_some {es : Entries} {name : String} {content : ByteArray} :
    es.file? name = some content ↔ es.get? name = some (.file content) := by
  unfold file?
  cases es.get? name with
  | none => simp
  | some node => cases node <;> simp

theorem get?_cons (first : String) (node : Node) (es : Entries) (name : String) :
    Entries.get? ((first, node) :: es) name = if name = first then some node else es.get? name := by
  rw [get?, List.lookup_cons]
  by_cases same : name = first
  · rw [if_pos same, beq_iff_eq.mpr same]
  · rw [if_neg same, beq_eq_false_iff_ne.mpr same]
    rfl

theorem get?_put_self (es : Entries) (name : String) (node : Node) :
    (es.put name node).get? name = some node := by
  induction es with
  | nil => rw [put, get?_cons, if_pos rfl]
  | cons e es ih =>
    obtain ⟨first, old⟩ := e
    by_cases same : first = name
    · rw [put, if_pos same, get?_cons, if_pos rfl]
    · rw [put, if_neg same, get?_cons, if_neg (Ne.symm same), ih]

theorem get?_put_other (es : Entries) {name other : String} (node : Node) (h : other ≠ name) :
    (es.put name node).get? other = es.get? other := by
  induction es with
  | nil => rw [put, get?_cons, if_neg h]
  | cons e es ih =>
    obtain ⟨first, old⟩ := e
    by_cases same : first = name
    · subst same
      rw [put, if_pos rfl, get?_cons, get?_cons, if_neg h, if_neg h]
    · rw [put, if_neg same, get?_cons, get?_cons, ih]

theorem at?_nil (es : Entries) : at? [] es = some es := rfl

theorem at?_cons (name : String) (a : Address) (es : Entries) :
    at? (name :: a) es = (es.folder? name).bind (at? a) := by
  rw [at?, folder?]
  cases es.get? name with
  | none => rfl
  | some node => cases node <;> rfl

theorem at?_append (a b : Address) (es : Entries) :
    at? (a ++ b) es = (at? a es).bind (at? b) := by
  induction a generalizing es with
  | nil => rfl
  | cons name a ih =>
    rw [List.cons_append, at?_cons, at?_cons, Option.bind_assoc]
    exact congrArg _ (funext ih)

theorem folder?_put_self (es : Entries) (name : String) (inner : Entries) :
    (es.put name (.folder inner)).folder? name = some inner := by
  simp only [folder?, get?_put_self]

theorem folder?_put_file (es : Entries) (name : String) (content : ByteArray) :
    (es.put name (.file content)).folder? name = none := by
  simp only [folder?, get?_put_self]

theorem folder?_put_other (es : Entries) {name other : String} (node : Node) (h : other ≠ name) :
    (es.put name node).folder? other = es.folder? other := by
  simp only [folder?, get?_put_other es node h]

theorem file?_put_self (es : Entries) (name : String) (content : ByteArray) :
    (es.put name (.file content)).file? name = some content := by
  simp only [file?, get?_put_self]

theorem file?_put_folder (es : Entries) (name : String) (inner : Entries) :
    (es.put name (.folder inner)).file? name = none := by
  simp only [file?, get?_put_self]

theorem file?_put_other (es : Entries) {name other : String} (node : Node) (h : other ≠ name) :
    (es.put name node).file? other = es.file? other := by
  simp only [file?, get?_put_other es node h]

theorem file?_of_folder {es inner : Entries} {name : String} (h : es.folder? name = some inner) :
    es.file? name = none := by
  rw [file?, folder?_eq_some.mp h]

theorem change_of_folder {f : Entries → Entries} {name : String} {a : Address} {es inner : Entries}
    (h : es.folder? name = some inner) :
    change f (name :: a) es = es.put name (.folder (change f a inner)) := by
  rw [change, folder?_eq_some.mp h]

theorem change_of_no_folder {f : Entries → Entries} {name : String} {a : Address} {es : Entries}
    (h : es.folder? name = none) : change f (name :: a) es = es := by
  rw [change]
  cases got : es.get? name with
  | none => rfl
  | some node =>
    cases node with
    | file content => rfl
    | folder inner =>
      rw [folder?, got] at h
      cases h

theorem put_same {es : Entries} {name : String} {node : Node} (h : es.get? name = some node) :
    es.put name node = es := by
  induction es with
  | nil => cases h
  | cons e es ih =>
    obtain ⟨first, old⟩ := e
    rw [get?_cons] at h
    by_cases same : name = first
    · rw [if_pos same] at h
      cases h
      rw [put, if_pos same.symm, same]
    · rw [if_neg same] at h
      rw [put, if_neg (Ne.symm same), ih h]

/-- Where no folder stands nothing is changed. -/
theorem change_of_missing {f : Entries → Entries} {a : Address} {root : Entries}
    (missing : at? a root = none) : change f a root = root := by
  induction a generalizing root with
  | nil => cases missing
  | cons name a ih =>
    cases found : root.folder? name with
    | none => exact change_of_no_folder found
    | some inner =>
      rw [at?_cons, found, Option.bind_some] at missing
      rw [change_of_folder found, ih missing, put_same (folder?_eq_some.mp found)]

section Put

variable {name : String} {node : Node}

/-- Putting something under a name that is no folder's leaves every folder where it is. -/
theorem folder_stays {a : Address} {root : Entries}
    (fresh : ∀ es, at? a root = some es → es.folder? name = none) {b : Address}
    (h : (at? b root).isSome) : (at? b (change (·.put name node) a root)).isSome := by
  induction a generalizing root b with
  | nil =>
    cases b with
    | nil => rfl
    | cons k b =>
      have other : k ≠ name := by
        rintro rfl
        rw [at?_cons, fresh root rfl] at h
        cases h
      rwa [at?_cons, change, folder?_put_other root node other, ← at?_cons]
  | cons m a ih =>
    cases found : root.folder? m with
    | none => rwa [change_of_no_folder found]
    | some inner =>
      rw [change_of_folder found]
      cases b with
      | nil => rfl
      | cons k b =>
        by_cases same : k = m
        · subst same
          rw [at?_cons, found, Option.bind_some] at h
          rw [at?_cons, folder?_put_self, Option.bind_some]
          exact ih (fun es hes => fresh es (by rw [at?_cons, found]; exact hes)) h
        · rwa [at?_cons, folder?_put_other root _ same, ← at?_cons]

/-- The files after one has been put under a name that is no folder's. -/
theorem file?_change {content : ByteArray} {a : Address} {root : Entries}
    (there : (at? a root).isSome) (fresh : ∀ es, at? a root = some es → es.folder? name = none)
    (b : Address) (other : String) :
    (at? b (change (·.put name (.file content)) a root)).bind (·.file? other) =
      if b = a ∧ other = name then some content else (at? b root).bind (·.file? other) := by
  induction a generalizing root b with
  | nil =>
    cases b with
    | nil =>
      by_cases same : other = name
      · subst same
        simp [change, at?_nil, file?_put_self]
      · simp [change, at?_nil, file?_put_other root _ same, same]
    | cons k b =>
      have kept : (root.put name (.file content)).folder? k = root.folder? k := by
        by_cases same : k = name
        · subst same
          rw [folder?_put_file, fresh root rfl]
        · exact folder?_put_other root _ same
      simp [change, at?_cons, kept]
  | cons m a ih =>
    cases found : root.folder? m with
    | none =>
      rw [at?_cons, found] at there
      cases there
    | some inner =>
      rw [change_of_folder found]
      cases b with
      | nil =>
        have kept : (root.put m (.folder (change (·.put name (.file content)) a inner))).file? other =
            root.file? other := by
          by_cases same : other = m
          · subst same
            rw [file?_put_folder, file?_of_folder found]
          · exact file?_put_other root _ same
        simp [at?_nil, kept]
      | cons k b =>
        by_cases same : k = m
        · subst same
          rw [at?_cons, found] at there
          rw [at?_cons, folder?_put_self, Option.bind_some, at?_cons, found, Option.bind_some,
            ih there fun es hes => fresh es (by rw [at?_cons, found]; exact hes)]
          simp
        · rw [at?_cons, folder?_put_other root _ same, ← at?_cons]
          simp [same]

end Put

end Entries

namespace Path

/-- The name that a path ends in, if it ends in one. -/
def lastName? (p : Path) : Option String := if p.ending = .dot then none else p.name?

/-- The steps of a path to the folder in which its name stands. -/
def way (p : Path) : List String := if p.lastName?.isSome then p.steps.dropLast else p.steps

end Path

namespace FileTree

/-- What the folder at an address holds, which is nothing where no folder stands. -/
def held (t : FileTree) (a : Address) : Entries := (t.folder? a).getD []

/-- The content of the file under a name in the folder at an address. -/
def fileAt? (t : FileTree) (a : Address) (name : String) : Option ByteArray :=
  (t.folder? a).bind (·.file? name)

/-- The working folder is there. -/
def HasHome (t : FileTree) : Prop := (t.folder? t.working).isSome

/-- The folder in which a path begins. -/
def startOf (t : FileTree) (p : Path) : Address := if p.rooted then [] else t.working

/-- The address to which steps lead, both with the last name first. -/
def follow : Address → List String → Address :=
  List.foldl fun a step => if step = ".." then a.tail else step :: a

/-- Where a path leads by its steps alone: the address of a folder, and the name in it. -/
def placeOf (t : FileTree) (p : Path) : Address × Option String :=
  ((follow (t.startOf p).reverse p.way).reverse, p.lastName?)

/-- Every folder of a tree is one of another tree, and both have the same working folder. -/
structure Extends (t t' : FileTree) : Prop where
  working : t'.working = t.working
  folders : ∀ {a}, (t.folder? a).isSome → (t'.folder? a).isSome

/-- One tree becomes the other when the file under a name in a folder gets a content. -/
structure Written (a : Address) (name : String) (content : ByteArray) (t t' : FileTree) : Prop
    extends Extends t t' where
  files : ∀ b other, t'.fileAt? b other =
    if b = a ∧ other = name then some content else t.fileAt? b other

variable {t t' : FileTree}

theorem Extends.home (h : Extends t t') (home : t.HasHome) : t'.HasHome := by
  unfold HasHome
  rw [h.working]
  exact h.folders home

theorem Extends.startOf (h : Extends t t') (p : Path) : t'.startOf p = t.startOf p := by
  unfold FileTree.startOf
  rw [h.working]

theorem Extends.placeOf (h : Extends t t') (p : Path) : t'.placeOf p = t.placeOf p := by
  unfold FileTree.placeOf
  rw [h.startOf]

theorem Extends.refl (t : FileTree) : Extends t t := ⟨rfl, id⟩

theorem Extends.trans {t₂ : FileTree} (h : Extends t t') (h' : Extends t' t₂) : Extends t t₂ :=
  ⟨h'.working.trans h.working, fun there => h'.folders (h.folders there)⟩

theorem held_of_folder {a : Address} {es : Entries} (there : t.folder? a = some es) :
    t.held a = es := by
  rw [held, there, Option.getD_some]

theorem fileAt?_eq (t : FileTree) (a : Address) (name : String) :
    t.fileAt? a name = (t.held a).file? name := by
  unfold fileAt? held
  cases t.folder? a with
  | none => rfl
  | some es => rfl

theorem isSome_of_fileAt? {a : Address} {name : String} {content : ByteArray}
    (h : t.fileAt? a name = some content) : (t.folder? a).isSome :=
  Option.isSome_of_isSome_bind (Option.isSome_of_eq_some h)

theorem put_of_missing {a : Address} (missing : t.folder? a = none) (name : String) (node : Node) :
    t.put a name node = t := by
  rw [put, Entries.change_of_missing missing]

theorem extends_put {a : Address} {name : String} (node : Node)
    (fresh : (t.held a).folder? name = none) : Extends t (t.put a name node) :=
  ⟨rfl, Entries.folder_stays fun _ there => held_of_folder there ▸ fresh⟩

theorem written_put {a : Address} {name : String} (content : ByteArray)
    (there : (t.folder? a).isSome) (fresh : (t.held a).folder? name = none) :
    Written a name content t (t.put a name (.file content)) where
  toExtends := extends_put _ fresh
  files := Entries.file?_change there fun _ there => held_of_folder there ▸ fresh

/-! ### Paths -/

/-- Only a name that is too long is not looked up. -/
theorem lookUp_ok {es : Entries} {name : String} {there : Option Node} :
    lookUp es name = .ok there ↔ name.utf8ByteSize ≤ nameLimit ∧ es.get? name = there := by
  rw [lookUp]
  by_cases long : nameLimit < name.utf8ByteSize
  · rw [if_pos long]
    exact ⟨nofun, fun h => absurd long (Nat.not_lt.mpr h.1)⟩
  · rw [if_neg long, Except.ok.injEq]
    exact (and_iff_right (Nat.not_lt.mp long)).symm

theorem lookUp_folder {es inner : Entries} {name : String} :
    lookUp es name = .ok (some (.folder inner)) ↔
      name.utf8ByteSize ≤ nameLimit ∧ es.folder? name = some inner := by
  rw [lookUp_ok, Entries.folder?_eq_some]

theorem lookUp_file {es : Entries} {content : ByteArray} {name : String} :
    lookUp es name = .ok (some (.file content)) ↔
      name.utf8ByteSize ≤ nameLimit ∧ es.file? name = some content := by
  rw [lookUp_ok, Entries.file?_eq_some]

/-- The first step of a walk goes back, or into a folder. -/
theorem walk_cons {a : Address} {es : Entries} {step : String} {rest : List String}
    {r : Address × Entries} :
    t.walk a es (step :: rest) = .ok r ↔
      (step = ".." ∧ t.walk a.tail ((t.folder? a.tail.reverse).getD []) rest = .ok r) ∨
      (step ≠ ".." ∧ ∃ inner, (step.utf8ByteSize ≤ nameLimit ∧ es.folder? step = some inner) ∧
        t.walk (step :: a) inner rest = .ok r) := by
  rw [walk]
  by_cases back : step = ".."
  · simp [back]
  · simp only [back, false_and, false_or, ne_eq, not_false_iff, true_and, ← lookUp_folder]
    cases lookUp es step with
    | error e => simp
    | ok there =>
      cases there with
      | none => simp
      | some node => cases node <;> simp

theorem folder?_tail {a : Address} (h : (t.folder? a.reverse).isSome) :
    (t.folder? a.tail.reverse).isSome := by
  cases a with
  | nil => exact h
  | cons step a =>
    rw [folder?, List.reverse_cons, Entries.at?_append] at h
    exact Option.isSome_of_isSome_bind h

theorem folder?_concat (a : Address) (name : String) :
    t.folder? (a ++ [name]) = (t.held a).folder? name := by
  unfold held folder?
  rw [Entries.at?_append]
  cases Entries.at? a t.root with
  | none => rfl
  | some es =>
    rw [Option.bind_some, Entries.at?_cons, Option.getD_some]
    cases es.folder? name <;> rfl

theorem folder?_step (a : Address) (step : String) :
    t.folder? (step :: a).reverse = (t.held a.reverse).folder? step := by
  rw [List.reverse_cons, folder?_concat]

/-- A walk ends at the address that its steps say, with what stands there, and every tree that extends
the tree lets it go the same way. -/
theorem walk_extends (h : Extends t t') {steps : List String} {a a' : Address} {es : Entries}
    (walks : t.walk a (t.held a.reverse) steps = .ok (a', es)) :
    a' = follow a steps ∧ es = t.held a'.reverse ∧
      t'.walk a (t'.held a.reverse) steps = .ok (a', t'.held a'.reverse) := by
  induction steps generalizing a with
  | nil =>
    rw [walk] at walks
    cases walks
    exact ⟨rfl, rfl, rfl⟩
  | cons step rest ih =>
    rw [follow, List.foldl_cons, ← follow]
    rcases walk_cons.mp walks with ⟨back, walks⟩ | ⟨forth, inner, ⟨short, found⟩, walks⟩
    · obtain ⟨address, last, walks'⟩ := ih walks
      exact ⟨by rw [if_pos back]; exact address, last, walk_cons.mpr (.inl ⟨back, walks'⟩)⟩
    · have next : t.folder? (step :: a).reverse = some inner := (folder?_step a step).trans found
      obtain ⟨inner', next'⟩ :=
        Option.isSome_iff_exists.mp (h.folders (Option.isSome_of_eq_some next))
      rw [← held_of_folder next] at walks
      obtain ⟨address, last, walks'⟩ := ih walks
      refine ⟨by rw [if_neg forth]; exact address, last, ?_⟩
      rw [held_of_folder next'] at walks'
      have found' := (folder?_step a step).symm.trans next'
      exact walk_cons.mpr (.inr ⟨forth, inner', ⟨short, found'⟩, walks'⟩)

/-- A walk from a folder ends in a folder. -/
theorem walk_folder {steps : List String} {a a' : Address} {es : Entries}
    (there : (t.folder? a.reverse).isSome)
    (walks : t.walk a (t.held a.reverse) steps = .ok (a', es)) : (t.folder? a'.reverse).isSome := by
  induction steps generalizing a with
  | nil =>
    rw [walk] at walks
    cases walks
    exact there
  | cons step rest ih =>
    rcases walk_cons.mp walks with ⟨-, walks⟩ | ⟨-, inner, ⟨-, found⟩, walks⟩
    · exact ih (folder?_tail there) walks
    · have next : t.folder? (step :: a).reverse = some inner := (folder?_step a step).trans found
      rw [← held_of_folder next] at walks
      exact ih (Option.isSome_of_eq_some next) walks

/-- Paths that lead nowhere in any tree apart, a path leads where the walk of its steps ends. -/
theorem locate_iff {p : Path} {l : Location} :
    t.locate p = .ok l ↔
      (¬ p.text.toList.contains '\x00' ∧ ¬ p.isEmpty ∧ ¬ Path.sizeLimit < p.text.utf8ByteSize) ∧
        l.name? = p.lastName? ∧
        t.walk (t.startOf p).reverse (t.held (t.startOf p).reverse.reverse) p.way =
          .ok (l.folder.reverse, l.entries) := by
  obtain ⟨folder, entries, name?⟩ := l
  rw [List.reverse_reverse, held]
  unfold locate
  split
  · rename_i nul
    exact ⟨nofun, fun h => absurd nul h.1.1⟩
  split
  · rename_i empty
    exact ⟨nofun, fun h => absurd empty h.1.2.1⟩
  split
  · rename_i long
    exact ⟨nofun, fun h => absurd long h.1.2.2⟩
  rename_i noNul nonempty short
  refine Iff.trans ?_ (and_iff_right ⟨noNul, nonempty, short⟩).symm
  cases walked : t.walk (t.startOf p).reverse ((t.folder? (t.startOf p)).getD []) p.way with
  | error e =>
    refine ⟨fun h => ?_, fun h => nomatch h.2⟩
    unfold startOf Path.way Path.lastName? at walked
    simp only [walked] at h
    cases h
  | ok r =>
    unfold startOf Path.way Path.lastName? at walked
    simp only [walked, Except.ok.injEq, Location.mk.injEq, Prod.ext_iff]
    constructor
    · rintro ⟨rfl, rfl, rfl⟩
      exact ⟨rfl, (List.reverse_reverse _).symm, rfl⟩
    · rintro ⟨rfl, address, rfl⟩
      exact ⟨by rw [address, List.reverse_reverse], rfl, rfl⟩

theorem folder?_startOf (home : t.HasHome) (p : Path) : (t.folder? (t.startOf p)).isSome := by
  unfold startOf
  split
  · rfl
  · exact home

/-- The same of the location to which a path leads. -/
theorem locate_extends (h : Extends t t') {p : Path} {l : Location} (located : t.locate p = .ok l) :
    (l.folder, l.name?) = t.placeOf p ∧ l.entries = t.held l.folder ∧
      t'.locate p = .ok ⟨l.folder, t'.held l.folder, l.name?⟩ := by
  obtain ⟨sound, name, walks⟩ := locate_iff.mp located
  obtain ⟨address, last, walks'⟩ := walk_extends h walks
  rw [List.reverse_reverse l.folder] at last walks'
  refine ⟨?_, last, locate_iff.mpr ⟨sound, name, by rw [h.startOf]; exact walks'⟩⟩
  rw [placeOf, ← address, name, List.reverse_reverse]

theorem locate_held {p : Path} {a : Address} {es : Entries} {name? : Option String}
    (located : t.locate p = .ok ⟨a, es, name?⟩) : es = t.held a :=
  (locate_extends (.refl t) located).2.1

theorem locate_folder (home : t.HasHome) {p : Path} {l : Location} (located : t.locate p = .ok l) :
    (t.folder? l.folder).isSome := by
  have there := folder?_startOf home p
  rw [← List.reverse_reverse (t.startOf p)] at there
  have last := walk_folder there (locate_iff.mp located).2.2
  rwa [List.reverse_reverse] at last

/-! ### Reading and writing -/

/-- A path that can be the path of a file: it leads to the folder at the address `a` and ends in a name
there. -/
structure Names (t : FileTree) (p : Path) (a : Address) (name : String) : Prop where
  located : t.locate p = .ok ⟨a, t.held a, some name⟩
  short : name.utf8ByteSize ≤ nameLimit
  ending : p.ending ≠ .slash

section Names

variable {p : Path} {a : Address} {name : String}

theorem Names.place (h : Names t p a name) : t.placeOf p = (a, some name) :=
  (locate_extends (.refl t) h.located).1.symm

theorem Names.folder (h : Names t p a name) (home : t.HasHome) : (t.folder? a).isSome :=
  locate_folder home h.located

theorem Names.after (h : Names t p a name) (grown : Extends t t') : Names t' p a name :=
  ⟨(locate_extends grown h.located).2.2, h.short, h.ending⟩

theorem Names.read (h : Names t p a name) {content : ByteArray}
    (found : t.fileAt? a name = some content) : t.read p = .ok content := by
  rw [fileAt?_eq] at found
  unfold FileTree.read find
  simp only [h.located, lookUp_file.mpr ⟨h.short, found⟩, if_neg h.ending]

theorem read_ok {content : ByteArray} (h : t.read p = .ok content) :
    ∃ a name, Names t p a name ∧ t.fileAt? a name = some content := by
  unfold FileTree.read find at h
  cases located : t.locate p with
  | error e =>
    rw [located] at h
    cases h
  | ok l =>
    obtain ⟨a, es, _ | name⟩ := l
    · rw [located] at h
      cases h
    obtain rfl : es = t.held a := locate_held located
    simp only [located] at h
    cases found : lookUp (t.held a) name with
    | error e =>
      rw [found] at h
      cases h
    | ok there =>
      obtain _ | (old | inner) := there
      · rw [found] at h
        cases h
      · simp only [found] at h
        by_cases slash : p.ending = .slash
        · rw [if_pos slash] at h
          cases h
        · rw [if_neg slash] at h
          cases h
          obtain ⟨short, file⟩ := lookUp_file.mp found
          exact ⟨a, name, ⟨located, short, slash⟩, by rw [fileAt?_eq, file]⟩
      · rw [found] at h
        cases h

end Names

/-- A write that is done puts a file under a name that is no folder's, in the folder to which the path
leads. -/
theorem writeWith_ok {p : Path} {f : Option ByteArray → ByteArray} (h : t.writeWith p f = .ok t') :
    ∃ a name, Names t p a name ∧ (t.held a).folder? name = none ∧
      ∃ old, t' = t.put a name (.file (f old)) := by
  unfold writeWith at h
  cases located : t.locate p with
  | error e =>
    rw [located] at h
    cases h
  | ok l =>
    obtain ⟨a, es, _ | name⟩ := l
    · rw [located] at h
      cases h
    obtain rfl : es = t.held a := locate_held located
    simp only [located] at h
    by_cases slash : p.ending = .slash
    · rw [if_pos slash] at h
      cases h
    rw [if_neg slash] at h
    cases found : lookUp (t.held a) name with
    | error e =>
      rw [found] at h
      cases h
    | ok there =>
      obtain ⟨short, got⟩ := lookUp_ok.mp found
      obtain _ | (old | inner) := there
      · simp only [found, Except.ok.injEq] at h
        exact ⟨a, name, ⟨located, short, slash⟩, by rw [Entries.folder?, got], none, h.symm⟩
      · simp only [found, Except.ok.injEq] at h
        exact ⟨a, name, ⟨located, short, slash⟩, by rw [Entries.folder?, got], some old, h.symm⟩
      · rw [found] at h
        cases h

/-- A write that is done changes one file, the one at the place of the path. In a tree without the
folder to which the path leads nothing changes. -/
theorem writeWith_cases {p : Path} {f : Option ByteArray → ByteArray} (h : t.writeWith p f = .ok t') :
    ∃ a name, Names t p a name ∧
      (t' = t ∧ t.folder? a = none ∨ ∃ old, Written a name (f old) t t') := by
  obtain ⟨a, name, names, fresh, old, rfl⟩ := writeWith_ok h
  refine ⟨a, name, names, ?_⟩
  cases there : t.folder? a with
  | none => exact .inl ⟨put_of_missing there _ _, rfl⟩
  | some es => exact .inr ⟨old, written_put _ (Option.isSome_of_eq_some there) fresh⟩

theorem writeWith_extends {p : Path} {f : Option ByteArray → ByteArray}
    (h : t.writeWith p f = .ok t') : Extends t t' := by
  obtain ⟨a, name, -, ⟨rfl, -⟩ | ⟨old, written⟩⟩ := writeWith_cases h
  · exact .refl t'
  · exact written.toExtends

/-- A file that has been written reads as it was written, if it can be read. -/
theorem eq_of_read_writeWith {p : Path} {content found : ByteArray}
    (h : t.writeWith p (fun _ => content) = .ok t') (read : t'.read p = .ok found) :
    found = content := by
  obtain ⟨a, name, names, outcome⟩ := writeWith_cases h
  obtain ⟨b, other, names', file⟩ := read_ok read
  have place := (names.after (writeWith_extends h)).place.symm.trans names'.place
  cases place
  obtain ⟨rfl, missing⟩ | ⟨old, written⟩ := outcome
  · have there := isSome_of_fileAt? file
    rw [missing] at there
    cases there
  · rw [written.files, if_pos ⟨rfl, rfl⟩] at file
    exact (Option.some.inj file).symm

/-- A file that has been written reads as it was written. -/
theorem read_writeWith (home : t.HasHome) {p : Path} {content : ByteArray}
    (h : t.writeWith p (fun _ => content) = .ok t') : t'.read p = .ok content := by
  obtain ⟨a, name, names, outcome⟩ := writeWith_cases h
  obtain ⟨-, missing⟩ | ⟨old, written⟩ := outcome
  · have there := names.folder home
    rw [missing] at there
    cases there
  · exact (names.after written.toExtends).read (by rw [written.files, if_pos ⟨rfl, rfl⟩])

/-- Writing one file leaves those at other places as they are. -/
theorem read_writeWith_other {p q : Path} {f : Option ByteArray → ByteArray}
    (h : t.writeWith q f = .ok t') (apart : t.placeOf q ≠ t.placeOf p) {content : ByteArray}
    (before : t.read p = .ok content) : t'.read p = .ok content := by
  obtain ⟨a, name, names, ⟨rfl, -⟩ | ⟨old, written⟩⟩ := writeWith_cases h
  · exact before
  · obtain ⟨b, other, names', found⟩ := read_ok before
    rw [names.place, names'.place] at apart
    have elsewhere : ¬ (b = a ∧ other = name) := by
      rintro ⟨rfl, rfl⟩
      exact apart rfl
    exact (names'.after written.toExtends).read (by rw [written.files, if_neg elsewhere, found])

/-! ### Steps -/

/-- A folder that is made is put, empty, where nothing stands. -/
theorem makeFolder_ok {p : Path} (h : t.makeFolder p = .ok t') :
    ∃ a name, t.placeOf p = (a, some name) ∧ (t.held a).get? name = none ∧
      t' = t.put a name (.folder []) := by
  unfold makeFolder at h
  cases located : t.locate p with
  | error e =>
    rw [located] at h
    cases h
  | ok l =>
    have place := (locate_extends (.refl t) located).1
    obtain ⟨a, es, _ | name⟩ := l
    · rw [located] at h
      cases h
    obtain rfl : es = t.held a := locate_held located
    simp only [located] at h
    split at h
    · cases h
    · cases h
    · rename_i absent
      cases h
      exact ⟨a, name, place.symm, (lookUp_ok.mp absent).2, rfl⟩

theorem makeFolder_extends {p : Path} (h : t.makeFolder p = .ok t') : Extends t t' := by
  obtain ⟨a, name, -, absent, rfl⟩ := makeFolder_ok h
  exact extends_put _ (by rw [Entries.folder?, absent])

/-- Some folders have been made, each at one of the paths. -/
def Raised (ps : List Path) : FileTree → FileTree → Prop :=
  Relation.ReflTransGen fun t t' => ∃ p ∈ ps, t.makeFolder p = .ok t'

theorem raised_mono {ps more : List Path} (sub : ∀ p ∈ ps, p ∈ more) (h : Raised ps t t') :
    Raised more t t' :=
  Relation.ReflTransGen.mono (fun _ _ ⟨p, mem, made⟩ => ⟨p, sub p mem, made⟩) _ _ h

theorem raised_extends {ps : List Path} (h : Raised ps t t') : Extends t t' := by
  induction h with
  | refl => exact .refl t
  | tail _ step ih =>
    obtain ⟨p, -, made⟩ := step
    exact ih.trans (makeFolder_extends made)

/-- Whether it is done or not, making folders makes some of those that are asked for. -/
theorem makeFolders_raised (ps : List Path) : Raised ps t (t.makeFolders ps).2 := by
  induction ps generalizing t with
  | nil => exact .refl
  | cons p before ih =>
    have own : ∀ {t t' : FileTree}, t.makeFolder p = .ok t' →
        ∃ q ∈ p :: before, t.makeFolder q = .ok t' := fun made => ⟨p, List.mem_cons_self, made⟩
    have rest : Raised (p :: before) t (t.makeFolders before).2 :=
      raised_mono (fun _ mem => List.mem_cons_of_mem _ mem) ih
    rw [makeFolders]
    split
    · exact .single (own ‹_›)
    · split
      · rename_i made
        rwa [made] at rest
      · rename_i made
        rw [made] at rest
        split
        · exact rest.tail (own ‹_›)
        · exact rest
    · exact .refl

theorem makeFolders_extends (ps : List Path) : Extends t (t.makeFolders ps).2 :=
  raised_extends (makeFolders_raised ps)

theorem perform_makeFolders_extends (p : Path) : Extends t (t.perform (.makeFolders p)).2 := by
  rw [perform]
  split
  · exact .refl t
  · exact makeFolders_extends _

theorem append_extends (q : Path) (more : ByteArray) :
    Extends t (t.perform (.append q more)).2 := by
  unfold perform attempt
  simp only
  split
  · exact writeWith_extends ‹_›
  · exact .refl t

/-- Appending to one file leaves those at other places as they are, whether it is done or not. -/
theorem read_append_other {p q : Path} (more : ByteArray)
    (apart : t.placeOf q ≠ t.placeOf p) {content : ByteArray} (before : t.read p = .ok content) :
    (t.perform (.append q more)).2.read p = .ok content := by
  unfold perform attempt
  simp only
  split
  · exact read_writeWith_other ‹_› apart before
  · exact before

end FileTree

end CommandDeck
