import Mathlib.Data.List.TakeWhile
import CommandDeck.Proofs.Storage.Write

/-!
# Paths beside each other

A path made of parts has these parts. So the path with another extension has the steps of the path up to
its name, begins where the path begins, and leads to the same folder.
-/

namespace CommandDeck

namespace Text

theorem not_mem_of_mem_splitAt {mark : Char} {s part : List Char} (h : part ∈ splitAt mark s) :
    mark ∉ part := by
  induction s generalizing part with
  | nil =>
    rw [List.mem_singleton.mp h]
    exact List.not_mem_nil
  | cons c s ih =>
    rw [splitAt] at h
    split at h
    · rcases List.mem_cons.mp h with rfl | h
      · exact List.not_mem_nil
      · exact ih h
    · rename_i other
      split at h
      · rw [List.mem_singleton.mp h, List.mem_singleton]
        exact Ne.symm other
      · rename_i first more parts
        rw [parts] at ih
        rcases List.mem_cons.mp h with rfl | h
        · exact List.not_mem_cons_of_ne_of_not_mem (Ne.symm other) (ih List.mem_cons_self)
        · exact ih (List.mem_cons_of_mem _ h)

theorem splitAt_of_not_mem {mark : Char} {part : List Char} (clean : mark ∉ part) :
    splitAt mark part = [part] := by
  induction part with
  | nil => rfl
  | cons c part ih =>
    obtain ⟨other, clean⟩ := List.ne_and_not_mem_of_not_mem_cons clean
    rw [splitAt, if_neg (Ne.symm other), ih clean]

theorem splitAt_append {mark : Char} {part : List Char} (clean : mark ∉ part) (s : List Char) :
    splitAt mark (part ++ mark :: s) = part :: splitAt mark s := by
  induction part with
  | nil => rw [List.nil_append, splitAt, if_pos rfl]
  | cons c part ih =>
    obtain ⟨other, clean⟩ := List.ne_and_not_mem_of_not_mem_cons clean
    rw [List.cons_append, splitAt, if_neg (Ne.symm other), ih clean]

/-- A text of parts between marks has these parts. -/
theorem splitAt_intercalate {mark : Char} {parts : List (List Char)} (some : parts ≠ [])
    (clean : ∀ part ∈ parts, mark ∉ part) : splitAt mark ([mark].intercalate parts) = parts := by
  induction parts with
  | nil => exact absurd rfl some
  | cons part parts ih =>
    have first := clean part List.mem_cons_self
    cases parts with
    | nil => rw [List.intercalate_singleton, splitAt_of_not_mem first]
    | cons next more =>
      rw [List.intercalate_cons_cons, List.append_assoc, List.singleton_append,
        splitAt_append first, ih (List.cons_ne_nil _ _)
          fun other mem => clean other (List.mem_cons_of_mem _ mem)]

end Text

namespace Path

theorem parts_ofParts {backward : List (List Char)} (some : backward ≠ [])
    (clean : ∀ part ∈ backward, '/' ∉ part) : (ofParts backward).parts = backward.reverse := by
  rw [parts, ofParts, String.toList_ofList]
  exact Text.splitAt_intercalate (List.reverse_ne_nil_iff.mpr some)
    fun part mem => clean part (List.mem_reverse.mp mem)

theorem not_mem_of_mem_backward {p : Path} {part : List Char} (h : part ∈ p.backward) : '/' ∉ part :=
  Text.not_mem_of_mem_splitAt (List.mem_reverse.mp ((List.dropWhile_sublist _).subset h))

/-- The parts of a path: those before its name, the name, and idle ones. -/
theorem parts_of_backward {p : Path} {last : List Char} {before : List (List Char)}
    (h : p.backward = last :: before) :
    isIdle last = false ∧
      ∃ idle, (∀ part ∈ idle, isIdle part = true) ∧ p.parts = before.reverse ++ last :: idle := by
  have visible : isIdle last = false := by
    have head := List.head?_dropWhile_not isIdle p.parts.reverse
    rw [← backward, h] at head
    simpa using head
  refine ⟨visible, (p.parts.reverse.takeWhile isIdle).reverse, ?_, ?_⟩
  · intro part mem
    exact List.all_eq_true.mp List.all_takeWhile part (List.mem_reverse.mp mem)
  · have parts : p.parts.reverse = p.parts.reverse.takeWhile isIdle ++ last :: before := by
      rw [← h, backward, List.takeWhile_append_dropWhile]
    calc p.parts = p.parts.reverse.reverse := (List.reverse_reverse _).symm
      _ = (p.parts.reverse.takeWhile isIdle ++ last :: before).reverse := by rw [← parts]
      _ = before.reverse ++ last :: (p.parts.reverse.takeWhile isIdle).reverse := by simp

/-- The steps of a path whose parts end in a name and idle parts. -/
theorem steps_of_parts {p : Path} {front idle : List (List Char)} {last : List Char}
    (parts : p.parts = front ++ last :: idle) (visible : isIdle last = false)
    (rest : ∀ part ∈ idle, isIdle part = true) :
    p.steps = (front.filter fun part => !isIdle part).map String.ofList ++ [String.ofList last] := by
  have none : idle.filter (fun part => !isIdle part) = [] :=
    List.filter_eq_nil_iff.mpr fun part mem => by simp [rest part mem]
  rw [steps, parts, List.filter_append, List.filter_cons_of_pos (by simp [visible]), none,
    List.map_append]
  rfl

/-- A path begins at the root when its first part is empty and not its last. -/
theorem rooted_of_parts {p : Path} {front idle : List (List Char)} {last : List Char}
    (parts : p.parts = front ++ last :: idle) (visible : isIdle last = false) :
    p.rooted = (front.head? == some []) := by
  have some : last ≠ [] := by
    rintro rfl
    cases visible
  unfold Path.parts at parts
  unfold rooted
  cases text : p.text.toList with
  | nil =>
    rw [text, Text.splitAt] at parts
    cases front with
    | nil => exact absurd (List.cons.inj parts).1.symm some
    | cons first more => simp at parts
  | cons c rest =>
    rw [text, Text.splitAt] at parts
    by_cases slash : c = '/'
    · rw [if_pos slash] at parts
      cases front with
      | nil => exact absurd (List.cons.inj parts).1.symm some
      | cons first more =>
        rw [List.cons_append] at parts
        rw [slash, ← (List.cons.inj parts).1]
        rfl
    · rw [if_neg slash] at parts
      have first : ∃ part more, front ++ last :: idle = (c :: part) :: more := by
        rw [← parts]
        split
        · exact ⟨_, _, rfl⟩
        · exact ⟨_, _, rfl⟩
      obtain ⟨part, more, first⟩ := first
      cases front with
      | nil => simpa using slash
      | cons head front =>
        rw [(List.cons.inj first).1]
        simpa using slash

theorem mem_of_mem_stem {name : List Char} {c : Char} (h : c ∈ stem name) : c ∈ name := by
  unfold stem at h
  split at h
  · rename_i dot before found
    split at h
    · exact h
    · have mem : c ∈ name.reverse.dropWhile fun c => c ≠ '.' := by
        rw [found]
        exact List.mem_cons_of_mem _ (List.mem_reverse.mp h)
      exact List.mem_reverse.mp ((List.dropWhile_sublist _).subset mem)
  · exact h

theorem stem_ne_nil {name : List Char} (some : name ≠ []) : stem name ≠ [] := by
  unfold stem
  split
  · split
    · exact some
    · rename_i visible
      rw [List.isEmpty_iff] at visible
      exact List.reverse_ne_nil_iff.mpr visible
  · exact some

theorem ne_nil_of_visible {part : List Char} (visible : isIdle part = false) : part ≠ [] := by
  rintro rfl
  cases visible

theorem visible_of_stem {last : List Char} (visible : isIdle last = false) (extension : List Char) :
    isIdle (stem last ++ '.' :: extension) = false := by
  obtain ⟨c, more, parts⟩ := List.exists_cons_of_ne_nil (stem_ne_nil (ne_nil_of_visible visible))
  simp [parts, isIdle]

/-- The path with another extension has the parts of the path up to its name. -/
theorem withExtension_parts {p : Path} {extension : String} {last : List Char}
    {before : List (List Char)} (h : p.backward = last :: before) (name : last ≠ ['.', '.'])
    (clean : '/' ∉ extension.toList) :
    (p.withExtension extension).parts =
      before.reverse ++ [stem last ++ '.' :: extension.toList] := by
  have mem : ∀ part ∈ last :: before, '/' ∉ part := h ▸ fun _ => not_mem_of_mem_backward
  have draft : p.withExtension extension =
      ofParts ((stem last ++ '.' :: extension.toList) :: before) := by
    rw [withExtension, h]
    exact if_neg name
  rw [draft, parts_ofParts (List.cons_ne_nil _ _), List.reverse_cons]
  intro part other
  rcases List.mem_cons.mp other with rfl | other
  · rw [List.mem_append, List.mem_cons]
    rintro (slash | slash | slash)
    · exact mem last List.mem_cons_self (mem_of_mem_stem slash)
    · cases slash
    · exact clean slash
  · exact mem part (List.mem_cons_of_mem _ other)

section Extension

variable {p : Path} {last : List Char} {before : List (List Char)} {extension : String}

theorem backward_withExtension (h : p.backward = last :: before) (name : last ≠ ['.', '.'])
    (clean : '/' ∉ extension.toList) :
    (p.withExtension extension).backward = (stem last ++ '.' :: extension.toList) :: before := by
  have visible := visible_of_stem (parts_of_backward h).1 extension.toList
  rw [backward, withExtension_parts h name clean, List.reverse_append, List.reverse_reverse,
    List.reverse_singleton, List.singleton_append, List.dropWhile_cons_of_neg (by simp [visible])]

/-- The path with another extension stands in the same folder by its text. -/
theorem parent?_withExtension (h : p.backward = last :: before) (name : last ≠ ['.', '.'])
    (clean : '/' ∉ extension.toList) : (p.withExtension extension).parent? = p.parent? := by
  rw [parent?, parent?, backward_withExtension h name clean, h, List.drop_one, List.drop_one,
    List.tail_cons, List.tail_cons]

theorem name?_of_backward (h : p.backward = last :: before) (name : last ≠ ['.', '.']) :
    p.name? = some (String.ofList last) := by
  rw [name?, h]
  exact if_neg name

/-- An extension is never that of a name already when it has a dot in it. -/
theorem stem_append_ne {ds : List Char} (dotted : '.' ∈ ds) (last : List Char) :
    stem last ++ '.' :: ds ≠ last := by
  have longer : last ++ '.' :: ds ≠ last := by
    intro same
    have size := congrArg List.length same
    simp at size
  unfold stem
  split
  · rename_i dot front found
    split
    · exact longer
    · rintro rfl
      -- a dot of the extension would be the last dot of the name
      have some : ds.reverse.dropWhile (fun c => c ≠ '.') ≠ [] := by
        intro none
        have all := List.dropWhile_eq_nil_iff.mp none '.' (List.mem_reverse.mpr dotted)
        simp at all
      have text : (front.reverse ++ '.' :: ds).reverse = ds.reverse ++ '.' :: front := by simp
      rw [text, List.dropWhile_append, if_neg (by simpa using some)] at found
      have size := congrArg List.length found
      have positive := List.length_pos_iff.mpr some
      simp only [List.length_append, List.length_cons] at size
      omega
  · exact longer

theorem name?_withExtension_ne (h : p.backward = last :: before) (name : last ≠ ['.', '.'])
    (clean : '/' ∉ extension.toList) (dotted : '.' ∈ extension.toList) :
    (p.withExtension extension).name?.isSome ∧ (p.withExtension extension).name? ≠ p.name? := by
  have longer : stem last ++ '.' :: extension.toList ≠ ['.', '.'] := by
    intro same
    have size := congrArg List.length same
    have positive := List.length_pos_iff.mpr (stem_ne_nil (ne_nil_of_visible (parts_of_backward h).1))
    have positive' := List.length_pos_iff.mpr (List.ne_nil_of_mem dotted)
    simp only [List.length_append, List.length_cons, List.length_nil] at size
    omega
  rw [name?_of_backward h name, name?_of_backward (backward_withExtension h name clean) longer]
  refine ⟨rfl, fun same => stem_append_ne dotted last ?_⟩
  exact String.ofList_injective (Option.some.inj same)

/-- A path that ends in a step ends in its name. -/
theorem ending_withExtension (h : p.backward = last :: before) (name : last ≠ ['.', '.'])
    (clean : '/' ∉ extension.toList) : (p.withExtension extension).ending = .step := by
  have visible := visible_of_stem (parts_of_backward h).1 extension.toList
  rw [ending, withExtension_parts h name clean]
  simp only [List.reverse_append, List.reverse_singleton, List.singleton_append]
  rw [isIdle, Bool.or_eq_false_iff] at visible
  simp [isIdle, visible]

end Extension

theorem exists_backward {p : Path} (named : p.name?.isSome) :
    ∃ last before, p.backward = last :: before ∧ last ≠ ['.', '.'] := by
  unfold name? at named
  split at named
  · rename_i last before backward
    refine ⟨last, before, backward, ?_⟩
    rintro rfl
    cases named
  · cases named

theorem name?_of_lastName? {p : Path} {name : String} (last : p.lastName? = some name) :
    p.name? = some name := by
  unfold lastName? at last
  split at last
  · cases last
  · exact last

theorem lastName?_some {p : Path} (named : p.lastName?.isSome) :
    ∃ last before, p.backward = last :: before ∧ last ≠ ['.', '.'] := by
  obtain ⟨name, last⟩ := Option.isSome_iff_exists.mp named
  exact exists_backward (Option.isSome_of_eq_some (name?_of_lastName? last))

/-- Two paths of files in one folder under different names. -/
structure Beside (q p : Path) : Prop where
  parent : q.parent? = p.parent?
  named : q.lastName?.isSome
  other : q.name? ≠ p.name?

/-- A path stands beside itself with another extension that has a dot in it. -/
theorem withExtension_beside {p : Path} {extension : String} (named : p.name?.isSome)
    (clean : '/' ∉ extension.toList) (dotted : '.' ∈ extension.toList) :
    (p.withExtension extension).Beside p := by
  obtain ⟨last, before, backward, name⟩ := exists_backward named
  obtain ⟨named', other⟩ := name?_withExtension_ne backward name clean dotted
  refine ⟨parent?_withExtension backward name clean, ?_, other⟩
  rw [lastName?, ending_withExtension backward name clean, if_neg (by decide)]
  exact named'

/-- A path and the one with another extension begin alike and have the same steps up to their names. -/
theorem steps_withExtension {p : Path} {extension name : String} (clean : '/' ∉ extension.toList)
    (named : p.name? = some name) :
    (p.withExtension extension).rooted = p.rooted ∧
      (p.withExtension extension).steps.dropLast = p.steps.dropLast ∧
      p.steps = p.steps.dropLast ++ [name] ∧ name ≠ ".." := by
  obtain ⟨last, before, backward, proper⟩ := exists_backward (Option.isSome_of_eq_some named)
  obtain ⟨visible, idle, rest, parts⟩ := parts_of_backward backward
  have parts' := withExtension_parts backward proper clean
  have visible' := visible_of_stem visible extension.toList
  obtain rfl := Option.some.inj ((name?_of_backward backward proper).symm.trans named)
  have steps := steps_of_parts parts visible rest
  have steps' := steps_of_parts parts' visible' (fun _ mem => nomatch mem)
  refine ⟨?_, ?_, ?_, fun back => proper ?_⟩
  · rw [rooted_of_parts parts visible, rooted_of_parts parts' visible']
  · rw [steps, steps', List.dropLast_concat, List.dropLast_concat]
  · rw [steps, List.dropLast_concat]
  · rw [← String.toList_ofList (l := last), back]
    rfl

/-! ### The paths a path goes through -/

/-- A path that ends in one of the parts, which are given with the last one first, and goes the way to
it. -/
def EndsIn (q : Path) (parts : List (List Char)) : Prop :=
  ∃ part before, q = ofParts (part :: before) ∧ isIdle part = false ∧ part :: before <:+ parts

theorem EndsIn.mono {q : Path} {parts more : List (List Char)} (h : q.EndsIn parts)
    (suffix : parts <:+ more) : q.EndsIn more := by
  obtain ⟨part, before, same, visible, ends⟩ := h
  exact ⟨part, before, same, visible, ends.trans suffix⟩

theorem endsIn_of_mem_pathsTo {q : Path} {parts : List (List Char)} (mem : q ∈ pathsTo parts) :
    q.EndsIn parts := by
  induction parts with
  | nil => cases mem
  | cons part before ih =>
    rw [pathsTo] at mem
    split at mem
    · exact (ih mem).mono (List.suffix_cons part before)
    · rename_i visible
      rcases List.mem_cons.mp mem with same | mem
      · exact ⟨part, before, same, Bool.not_eq_true _ |>.mp visible, List.suffix_refl _⟩
      · exact (ih mem).mono (List.suffix_cons part before)

/-- The parent of a path and the paths it goes through end in the parts before the path's name. -/
theorem endsIn_of_mem_ancestry {p parent q : Path} (h : p.parent? = some parent)
    (mem : q ∈ parent.ancestry) : q.EndsIn p.backward.tail := by
  unfold parent? at h
  rw [List.drop_one] at h
  split at h
  · cases h
  rename_i found
  obtain ⟨part, before, parts⟩ := List.exists_cons_of_ne_nil found
  have visible : isIdle part = false := by
    have head := List.head?_dropWhile_not isIdle p.backward.tail
    rw [parts] at head
    simpa using head
  have ends : part :: before <:+ p.backward.tail := parts ▸ List.dropWhile_suffix _
  rw [parts] at h
  cases h
  have backward : (ofParts (part :: before)).backward = part :: before := by
    rw [Path.backward, parts_ofParts (List.cons_ne_nil _ _), List.reverse_reverse,
      List.dropWhile_cons_of_neg (by simp [visible])]
    exact fun other mem => not_mem_of_mem_backward (List.mem_of_mem_tail (ends.subset mem))
  rcases List.mem_cons.mp mem with rfl | mem
  · exact ⟨part, before, rfl, visible, ends⟩
  · rw [backward, List.drop_one] at mem
    exact (endsIn_of_mem_pathsTo mem).mono ((List.suffix_cons part before).trans ends)

/-- A path that goes the way to one of the parts before a name begins with the steps of that way. -/
theorem steps_of_endsIn {p q : Path} {last : List Char} {before : List (List Char)}
    (h : p.backward = last :: before) (ends : q.EndsIn before) :
    q.rooted = p.rooted ∧ q.steps ≠ [] ∧ q.steps <+: p.steps.dropLast := by
  obtain ⟨part, way, rfl, visible, front, rfl⟩ := ends
  obtain ⟨visible', idle, rest, parts⟩ := parts_of_backward h
  have clean : ∀ other ∈ part :: way, '/' ∉ other := fun other mem =>
    not_mem_of_mem_backward (h ▸ List.mem_cons_of_mem _ (List.mem_append_right front mem))
  have parts' : (ofParts (part :: way)).parts = way.reverse ++ part :: [] := by
    rw [parts_ofParts (List.cons_ne_nil _ _) clean, List.reverse_cons]
  have steps := steps_of_parts parts visible' rest
  have steps' := steps_of_parts parts' visible fun _ mem => nomatch mem
  have order : (front ++ part :: way).reverse = way.reverse ++ part :: front.reverse := by simp
  refine ⟨?_, ?_, ?_⟩
  · rw [rooted_of_parts parts visible', rooted_of_parts parts' visible, order]
    cases way.reverse with
    | nil => simp [ne_nil_of_visible visible]
    | cons first more => rfl
  · rw [steps']
    exact List.concat_ne_nil _ _
  · rw [steps, steps', List.dropLast_concat, order]
    exact ⟨(front.reverse.filter fun part => !isIdle part).map String.ofList, by simp [visible]⟩

end Path

namespace FileTree

/-- A path and the one with another extension lead to the same folder. -/
theorem placeOf_withExtension (t : FileTree) {p : Path} (extension : String)
    (clean : '/' ∉ extension.toList) (named : p.lastName?.isSome)
    (named' : (p.withExtension extension).lastName?.isSome) :
    (t.placeOf (p.withExtension extension)).1 = (t.placeOf p).1 := by
  obtain ⟨last, before, backward, name⟩ := Path.lastName?_some named
  obtain ⟨start, way, -⟩ := Path.steps_withExtension clean (Path.name?_of_backward backward name)
  rw [placeOf, placeOf, startOf, startOf, start, Path.way, Path.way, if_pos named, if_pos named', way]

theorem follow_concat (a : Address) (steps : List String) {name : String} (forth : name ≠ "..") :
    follow a (steps ++ [name]) = name :: follow a steps := by
  rw [follow, List.foldl_append]
  exact if_neg forth

/-- Where a path with a name ends in a dot, it leads to the folder of that name. -/
theorem placeOf_dot (t : FileTree) {p : Path} {extension name : String}
    (clean : '/' ∉ extension.toList) (named : p.name? = some name) (dot : p.lastName? = none)
    (named' : (p.withExtension extension).lastName?.isSome) :
    t.placeOf p = ((t.placeOf (p.withExtension extension)).1 ++ [name], none) := by
  obtain ⟨start, way, steps, forth⟩ := Path.steps_withExtension clean named
  have last : p.way = (p.withExtension extension).way ++ [name] := by
    rw [Path.way, if_neg (by rw [dot]; decide), Path.way, if_pos named', way, ← steps]
  rw [placeOf, placeOf, startOf, startOf, start, last, dot, follow_concat _ _ forth,
    List.reverse_cons]

theorem placeOf_of_lastName? (t : FileTree) {p : Path} {name : String}
    (last : p.lastName? = some name) : t.placeOf p = ((t.placeOf p).1, some name) := by
  rw [placeOf, last]

/-- A path with a name leads to the folder to which it leads with another extension: to the name in it or,
where it ends in a dot, into the folder of that name. -/
theorem placeOf_beside (t : FileTree) {p : Path} {extension : String} (named : p.name?.isSome)
    (clean : '/' ∉ extension.toList) (dotted : '.' ∈ extension.toList) :
    ∃ a name draft, draft ≠ name ∧ t.placeOf (p.withExtension extension) = (a, some draft) ∧
      (t.placeOf p = (a, some name) ∨ t.placeOf p = (a ++ [name], none)) := by
  have beside := Path.withExtension_beside named clean dotted
  obtain ⟨name, named⟩ := Option.isSome_iff_exists.mp named
  obtain ⟨draft, named'⟩ := Option.isSome_iff_exists.mp beside.named
  refine ⟨_, name, draft, ?_, t.placeOf_of_lastName? named', ?_⟩
  · rintro rfl
    exact beside.other ((Path.name?_of_lastName? named').trans named.symm)
  · cases last : p.lastName? with
    | none => exact .inr (t.placeOf_dot clean named last beside.named)
    | some other =>
      obtain rfl := Option.some.inj ((Path.name?_of_lastName? last).symm.trans named)
      rw [t.placeOf_withExtension extension clean (Option.isSome_of_eq_some last) beside.named]
      exact .inl (t.placeOf_of_lastName? last)

theorem length_follow (a : Address) {steps : List String} (forth : ".." ∉ steps) :
    (follow a steps).length = a.length + steps.length := by
  induction steps generalizing a with
  | nil => rfl
  | cons step rest ih =>
    obtain ⟨step', rest'⟩ := List.ne_and_not_mem_of_not_mem_cons forth
    have next : follow a (step :: rest) = follow (step :: a) rest :=
      congrArg (follow · rest) (if_neg (Ne.symm step'))
    rw [next, ih _ rest', List.length_cons, List.length_cons, Nat.add_right_comm, Nat.add_assoc]

/-- The folders that a path without steps back goes through stand above the folder of its name. -/
theorem placeOf_above (t : FileTree) {p parent q : Path} (extension : String)
    (named : p.name?.isSome) (clean : '/' ∉ extension.toList)
    (named' : (p.withExtension extension).lastName?.isSome) (forth : ".." ∉ p.steps)
    (before : p.parent? = some parent) (mem : q ∈ parent.ancestry) {b : Address} {k : String}
    (place : t.placeOf q = (b, some k)) :
    b.length < (t.placeOf (p.withExtension extension)).1.length := by
  obtain ⟨last, back, backward, proper⟩ := Path.exists_backward named
  have ends := Path.endsIn_of_mem_ancestry before mem
  rw [backward, List.tail_cons] at ends
  obtain ⟨start, some, front⟩ := Path.steps_of_endsIn backward ends
  obtain ⟨start', way, -⟩ := Path.steps_withExtension clean (Path.name?_of_backward backward proper)
  obtain ⟨rfl, last⟩ := Prod.mk.inj place
  have beginning := front.trans (List.dropLast_prefix _)
  have size := front.length_le
  have positive := List.length_pos_iff.mpr some
  have forth' : ".." ∉ q.steps.dropLast := fun mem =>
    forth (beginning.subset (List.dropLast_subset _ mem))
  have forth'' : ".." ∉ p.steps.dropLast := fun mem => forth (List.dropLast_subset _ mem)
  rw [placeOf, startOf, startOf, start, start', Path.way, Path.way, if_pos named', way,
    if_pos (Option.isSome_of_eq_some last), List.length_reverse, List.length_reverse,
    length_follow _ forth', length_follow _ forth'', List.length_dropLast]
  omega

end FileTree

end CommandDeck
