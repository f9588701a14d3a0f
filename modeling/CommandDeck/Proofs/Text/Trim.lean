import Mathlib.Data.List.DropRight
import CommandDeck.Text.Blank

/-!
# Trimming and cutting a text

White space around a text does not show when the text is trimmed, and a text that neither begins nor ends
with white space is left as it is. So trimming twice is trimming once. A mark at an end of a text is cut off
where it stands there.
-/

namespace CommandDeck.Text

/-! ### Trimming -/

/-- Neither the first nor the last character is white space. -/
structure Bare (s : List Char) : Prop where
  first : ∀ c ∈ s.head?, isBlank c = false
  last : ∀ c ∈ s.getLast?, isBlank c = false

theorem trimStart_of_first {s : List Char} (first : ∀ c ∈ s.head?, isBlank c = false) :
    trimStart s = s := by
  cases s with
  | nil => rfl
  | cons c s => exact List.dropWhile_cons_of_neg (by simp [first c rfl])

theorem trimEnd_of_last {s : List Char} (last : ∀ c ∈ s.getLast?, isBlank c = false) :
    trimEnd s = s := by
  refine List.rdropWhile_eq_self_iff.mpr fun nonempty => ?_
  simp [last _ (List.getLast?_eq_some_getLast nonempty)]

theorem trim_of_bare {s : List Char} (bare : Bare s) : trim s = s := by
  rw [trim, trimStart_of_first bare.first, trimEnd_of_last bare.last]

theorem bare_of_filled {s : List Char} (filled : ∀ c ∈ s, isBlank c = false) : Bare s where
  first := fun c h => filled c (List.mem_of_mem_head? h)
  last := fun c h => filled c (List.mem_of_mem_getLast? h)

theorem trimStart_first (s : List Char) : ∀ c ∈ (trimStart s).head?, isBlank c = false := by
  intro c h
  have stops := List.head?_dropWhile_not isBlank s
  rwa [← trimStart, Option.mem_def.mp h] at stops

/-- What is left of a text neither begins nor ends with white space. -/
theorem trim_bare (s : List Char) : Bare (trim s) where
  first := by
    have left : trim s <+: trimStart s := List.rdropWhile_prefix isBlank (trimStart s)
    intro c h
    cases parts : trim s with
    | nil =>
      rw [parts] at h
      cases h
    | cons d rest =>
      rw [parts] at h left
      cases h
      obtain ⟨more, whole⟩ := left
      exact trimStart_first s c (by rw [← whole]; rfl)
  last := by
    intro c h
    have nonempty : trim s ≠ [] := by
      rintro none
      rw [none] at h
      cases h
    rw [List.getLast?_eq_some_getLast nonempty] at h
    cases h
    exact Bool.eq_false_iff.mpr (List.rdropWhile_last_not isBlank (trimStart s) nonempty)

theorem trim_trim (s : List Char) : trim (trim s) = trim s := trim_of_bare (trim_bare s)

/-- Trimming adds nothing. -/
theorem mem_of_mem_trim {s : List Char} {c : Char} (h : c ∈ trim s) : c ∈ s :=
  (List.dropWhile_sublist isBlank).subset ((List.rdropWhile_prefix isBlank (trimStart s)).subset h)

theorem trimStart_blanks {blanks : List Char} (blank : blanks.all isBlank = true) (s : List Char) :
    trimStart (blanks ++ s) = trimStart s :=
  List.dropWhile_append_of_pos (List.all_eq_true.mp blank)

theorem trimEnd_blanks {blanks : List Char} (blank : blanks.all isBlank = true) (s : List Char) :
    trimEnd (s ++ blanks) = trimEnd s := by
  have reversed : ∀ c ∈ blanks.reverse, isBlank c = true := fun c h =>
    List.all_eq_true.mp blank c (List.mem_reverse.mp h)
  rw [trimEnd, List.reverse_append, List.dropWhile_append_of_pos reversed, trimEnd]

theorem trim_blanks {blanks : List Char} (blank : blanks.all isBlank = true) (s : List Char) :
    trim (s ++ blanks) = trim s := by
  have none : blanks.dropWhile isBlank = [] :=
    List.dropWhile_eq_nil_iff.mpr (List.all_eq_true.mp blank)
  rw [trim, trimStart, List.dropWhile_append, none]
  split
  · rename_i empty
    rw [trim, trimStart, List.isEmpty_iff.mp empty]
  · rw [trimEnd_blanks blank, trim, trimStart]

/-- White space around a text does not show. -/
theorem trim_between {before after : List Char} (leading : before.all isBlank = true)
    (trailing : after.all isBlank = true) (s : List Char) : trim (before ++ s ++ after) = trim s := by
  rw [trim_blanks trailing, trim, trimStart_blanks leading, trim]

/-! ### Cutting -/

theorem dropStart?_append (start s : List Char) : dropStart? start (start ++ s) = some s := by
  induction start with
  | nil => rfl
  | cons c start ih => rw [List.cons_append, dropStart?, if_pos rfl, ih]

theorem prefix_of_dropStart? {start s rest : List Char} (h : dropStart? start s = some rest) :
    start <+: s := by
  induction start generalizing s with
  | nil => exact List.nil_prefix
  | cons c start ih =>
    cases s with
    | nil => cases h
    | cons d s =>
      rw [dropStart?] at h
      split at h
      · rename_i same
        subst same
        exact (List.prefix_cons_inj c).mpr (ih h)
      · cases h

theorem dropStart?_eq_none {start s : List Char} (other : ¬ start <+: s) :
    dropStart? start s = none := by
  cases cut : dropStart? start s with
  | none => rfl
  | some rest => exact absurd (prefix_of_dropStart? cut) other

theorem dropEnd?_append (s tail : List Char) : dropEnd? tail (s ++ tail) = some s := by
  rw [dropEnd?, List.reverse_append, dropStart?_append, Option.map_some, List.reverse_reverse]

end CommandDeck.Text
