import CommandDeck.Text.Blank

/-!
# The words of a text

White space parts a text: the words on both sides of a blank character are those of the two parts. From
this it follows which words a line has that is put together from parts, and that white space at the end
of a line makes no difference.
-/

namespace CommandDeck.Text

/-- One or more characters of which none is white space. -/
def IsWord (s : String) : Prop := s.toList ≠ [] ∧ ∀ c ∈ s.toList, isBlank c = false

theorem words_filled_ne_nil {c : Char} (filled : isBlank c = false) (rest : List Char) :
    words (c :: rest) ≠ [] := by
  rw [words, filled, if_neg (by decide)]
  split
  · exact List.cons_ne_nil _ _
  · split <;> exact List.cons_ne_nil _ _

theorem words_eq_nil_iff (s : List Char) : words s = [] ↔ s.all isBlank = true := by
  induction s with
  | nil => simp
  | cons c rest ih =>
    cases blank : isBlank c with
    | true => rw [words_blank blank, ih, List.all_cons, blank, Bool.true_and]
    | false => simp [words_filled_ne_nil blank rest, blank]

theorem wordsOf_eq_nil_iff (s : String) : wordsOf s = [] ↔ isBlankText s = true := by
  rw [wordsOf, List.map_eq_nil_iff, words_eq_nil_iff, isBlankText]

/-- A blank character parts the words before it from those after it. -/
theorem words_append_blank {c : Char} (blank : isBlank c = true) (s t : List Char) :
    words (s ++ c :: t) = words s ++ words t := by
  induction s with
  | nil => exact words_blank blank t
  | cons d s ih =>
    cases filled : isBlank d with
    | true => rw [List.cons_append, words_blank filled, words_blank filled, ih]
    | false =>
      cases s with
      | nil => simp [words, filled, blank]
      | cons e s =>
        obtain later | later := (isBlank e).eq_false_or_eq_true
        · rw [List.cons_append, words, words, ih]
          simp [filled, later]
        · obtain ⟨word, more, parts⟩ := List.exists_cons_of_ne_nil (words_filled_ne_nil later s)
          rw [List.cons_append, words, words, ih, parts]
          simp [filled, later]

theorem words_append_blanks (s : List Char) {t : List Char} (blank : t.all isBlank = true) :
    words (s ++ t) = words s := by
  cases t with
  | nil => rw [List.append_nil]
  | cons c t =>
    rw [List.all_cons, Bool.and_eq_true] at blank
    rw [words_append_blank blank.1, (words_eq_nil_iff t).mpr blank.2, List.append_nil]

theorem words_of_filled {s : List Char} (nonempty : s ≠ [])
    (filled : ∀ c ∈ s, isBlank c = false) : words s = [s] := by
  induction s with
  | nil => exact absurd rfl nonempty
  | cons c s ih =>
    obtain ⟨first, others⟩ := List.forall_mem_cons.mp filled
    cases s with
    | nil => simp [words, first]
    | cons d s =>
      have next := (List.forall_mem_cons.mp others).1
      rw [words, ih (List.cons_ne_nil _ _) others]
      simp [first, next]

/-- Every word of a text is a word. -/
theorem filled_of_mem_words {s w : List Char} (h : w ∈ words s) :
    w ≠ [] ∧ ∀ c ∈ w, isBlank c = false := by
  induction s generalizing w with
  | nil => exact absurd h List.not_mem_nil
  | cons c s ih =>
    cases first : isBlank c with
    | true =>
      rw [words_blank first] at h
      exact ih h
    | false =>
      rw [words, first, if_neg (by decide)] at h
      have single : [c] ≠ [] ∧ ∀ d ∈ [c], isBlank d = false :=
        ⟨List.cons_ne_nil _ _, List.forall_mem_singleton.mpr first⟩
      split at h
      · rcases List.mem_cons.mp h with rfl | h
        · exact single
        · exact ih h
      · split at h
        · rw [List.mem_singleton.mp h]
          exact single
        · rename_i word more parts
          have inner := fun v (hv : v ∈ word :: more) => ih (parts ▸ hv)
          rcases List.mem_cons.mp h with rfl | h
          · refine ⟨List.cons_ne_nil _ _, List.forall_mem_cons.mpr ⟨first, ?_⟩⟩
            exact (inner word List.mem_cons_self).2
          · exact inner w (List.mem_cons_of_mem _ h)

theorem isWord_of_mem_wordsOf {s w : String} (h : w ∈ wordsOf s) : IsWord w := by
  obtain ⟨chars, mem, rfl⟩ := List.mem_map.mp h
  simpa only [IsWord, String.toList_ofList] using filled_of_mem_words mem

/-- A text is its own only word exactly when it is a word. -/
theorem wordsOf_eq_self_iff (s : String) : wordsOf s = [s] ↔ IsWord s := by
  constructor
  · intro alone
    exact isWord_of_mem_wordsOf (by rw [alone]; exact List.mem_singleton_self s)
  · rintro ⟨nonempty, filled⟩
    rw [wordsOf, words_of_filled nonempty filled, List.map_singleton, String.ofList_toList]

theorem wordsOf_space (s t : String) : wordsOf (s ++ " " ++ t) = wordsOf s ++ wordsOf t := by
  have space : isBlank ' ' = true := by decide
  simp only [wordsOf, String.toList_append, List.append_assoc, ← List.map_append]
  exact congrArg _ (words_append_blank space s.toList t.toList)

/-- The words of texts that are put together with spaces between them. -/
theorem wordsOf_intercalate (parts : List String) :
    wordsOf (" ".intercalate parts) = parts.flatMap wordsOf := by
  induction parts with
  | nil => rfl
  | cons s rest ih =>
    cases rest with
    | nil => simp [String.intercalate_singleton]
    | cons t more =>
      rw [String.intercalate_cons_cons, wordsOf_space, ih]
      exact List.flatMap_cons.symm

end CommandDeck.Text
