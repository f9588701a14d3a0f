import CommandDeck.Proofs.Json.Decoding

/-!
# Lists of trees

The reader of a list reads trees when that of its items does, and makes something of an array when it
makes something of each item.
-/

namespace CommandDeck.Json

section Lists

variable {α : Type} {n : Nat} {read : Reader α} {f : Tree → Option α}

/-- The items of an array, when something is made of each. -/
def listValue (f : Tree → Option α) : Tree → Option (List α)
  | .array items => items.mapM f
  | _ => none

theorem nextItem?_spelled {first : Bool} {t : Tree} {s rest : List Char}
    (h : Spells (comma first ++ t.tokens) s rest) :
    ∃ s', nextItem? first s = .ok (some s') ∧ s'.length ≤ s.length ∧ Spells t.tokens s' rest := by
  cases first with
  | true =>
    obtain ⟨c, s', found, begins, spelled⟩ := Spells.begin h
    refine ⟨c :: s', ?_, found ▸ length_skipSpace s, spelled⟩
    simp only [nextItem?, found, if_neg begins.opens, if_true]
  | false =>
    obtain ⟨s₁, separator, value⟩ := (spells_cons (by rfl)).mp h
    obtain ⟨c, s', found, begins, spelled⟩ := Spells.begin value
    have le : (c :: s').length ≤ s₁.length := found ▸ length_skipSpace s₁
    have shorter : s₁.length < s.length := skipSpace_shorter separator
    refine ⟨c :: s', ?_, by omega, spelled⟩
    simp only [nextItem?, separator, List.nil_append, found]
    rw [if_neg (by decide), if_neg (by decide)]
    simp only [if_true]
    split
    · rename_i none
      cases none
    · rename_i same
      exact absurd (List.cons.inj same).1 begins.opens
    · rename_i same
      obtain ⟨rfl, rfl⟩ := List.cons.inj same
      rfl

theorem nextItem?_closing (first : Bool) {s rest : List Char} (found : skipSpace s = ']' :: rest) :
    nextItem? first s = .ok none := by
  simp only [nextItem?, found, if_true]

theorem endList_closing {s rest : List Char} (found : skipSpace s = ']' :: rest) :
    endList s = .ok rest := by
  simp only [endList, found, if_true]

/-- Reads items and the bracket after them. -/
def itemsToEnd (read : Reader α) (levels : Nat) (budget : List Char) (first : Bool) (before : List α)
    (s : List Char) : Except ReadError (List α × List Char) :=
  (itemsFrom read levels budget first before s).bind fun r =>
    (endList r.2).map fun rest => (r.1, rest)

theorem listTail_eq (read : Reader α) (levels : Nat) (s : List Char) :
    listTail read levels s = itemsToEnd read levels s true [] s := by
  rw [listTail, itemsToEnd]
  cases itemsFrom read levels s true [] s <;> rfl

theorem itemsToEnd_spelled (h : Denotes n read f) {levels : Nat} (enough : n ≤ levels)
    {items : List Tree} {first : Bool} {before : List α} {s rest budget : List Char}
    (spelled : Spells (itemTokens first items ++ [[']']]) s rest)
    (room : s.length ≤ budget.length) :
    (itemsToEnd read levels budget first before s).toOption =
      (items.mapM f).map fun as => (before.reverse ++ as, rest) := by
  induction items generalizing first before s budget with
  | nil =>
    have closing := (spells_singleton (by rfl)).mp spelled
    obtain ⟨d, budget, rfl, -⟩ := exists_budget (skipSpace_shorter closing) room
    simp only [itemsToEnd, itemsFrom, nextItem?_closing first closing, Except.bind,
      endList_closing closing]
    simp [Except.map]
  | cons t items ih =>
    obtain ⟨m, item, later⟩ := spells_append.mp
      (show Spells ((comma first ++ t.tokens) ++ (itemTokens false items ++ [[']']])) s rest by
        simpa [itemTokens] using spelled)
    obtain ⟨s', next, le, value⟩ := nextItem?_spelled item
    have shorter := value.shorter
    have one := h enough value (ends_items later)
    obtain ⟨d, budget, rfl, room⟩ := exists_budget (Nat.lt_of_lt_of_le shorter le) room
    rw [List.mapM_cons]
    cases made : f t with
    | none =>
      rw [made] at one
      obtain ⟨e, done⟩ := toOption_eq_none.mp one
      simp only [itemsToEnd, itemsFrom, next, done]
      rfl
    | some a =>
      rw [made] at one
      have done := toOption_eq_some.mp one
      have others := @ih false (a :: before) m budget later (by omega)
      simp only [itemsToEnd, itemsFrom, next, done]
      rw [itemsToEnd] at others
      rw [others]
      cases items.mapM f with
      | none => rfl
      | some as => simp

theorem denotes_list (h : Denotes n read f) : Denotes (n + 1) (list read) (listValue f) := by
  intro levels enough t s rest spelled ends
  obtain ⟨levels, rfl⟩ : ∃ k, levels = k + 1 := ⟨levels - 1, by omega⟩
  have other : (∀ items, t ≠ .array items) → (list read (levels + 1) s).toOption = none := by
    intro different
    obtain ⟨c, s', found, begins, -⟩ := Spells.begin spelled
    have bracket : c ≠ '[' := fun same => (begins.bracket same).elim different
    rw [list, atValue_found found, if_neg bracket, toOption_wrongKind]
  cases t with
  | scalar v => exact other (by simp)
  | object members => exact other (by simp)
  | array items =>
    obtain ⟨s', found, inner⟩ := spells_array.mp spelled
    rw [list, atValue_found found, if_pos rfl, oneLevelDown, listTail_eq,
      itemsToEnd_spelled h (Nat.le_of_succ_le_succ enough) inner (Nat.le_refl _)]
    rfl

theorem nextItem?_ok_none {first : Bool} {s : List Char} (h : nextItem? first s = .ok none) :
    ∃ rest, skipSpace s = ']' :: rest := by
  unfold nextItem? at h
  split at h
  · cases h
  rename_i c rest found
  split at h
  · rename_i closing
    exact ⟨rest, closing ▸ found⟩
  split at h
  · cases h
  split at h
  · split at h <;> cases h
  · cases h

theorem nextItem?_ok_some {first : Bool} {t : Tree} {s s' rest : List Char}
    (h : nextItem? first s = .ok (some s')) (spelled : Spells t.tokens s' rest) :
    Spells (comma first ++ t.tokens) s rest := by
  unfold nextItem? at h
  split at h
  · cases h
  rename_i c rest found
  split at h
  · cases h
  split at h
  · rename_i first
    subst first
    cases h
    rw [← found] at spelled
    exact spells_skipSpace.mp spelled
  · rename_i first
    rw [Bool.not_eq_true] at first
    subst first
    split at h
    · rename_i separator
      subst separator
      split at h
      · cases h
      · cases h
      · rename_i found'
        cases h
        rw [← found'] at spelled
        exact (spells_cons (by rfl)).mpr ⟨rest, found, spells_skipSpace.mp spelled⟩
    · cases h

theorem itemsToEnd_ok
    (sound : ∀ {levels : Nat} {s rest : List Char} {a : α}, read levels s = .ok (a, rest) →
      ∃ t : Tree, Spells t.tokens s rest)
    {levels : Nat} {budget : List Char} {first : Bool} {before as : List α} {s rest : List Char}
    (h : itemsToEnd read levels budget first before s = .ok (as, rest)) :
    ∃ items, Spells (itemTokens first items ++ [[']']]) s rest := by
  induction budget generalizing first before s with
  | nil => cases h
  | cons d budget ih =>
    rw [itemsToEnd, itemsFrom] at h
    split at h
    · cases h
    · rename_i none
      obtain ⟨tail, found⟩ := nextItem?_ok_none none
      obtain ⟨_, ended, same⟩ := map_eq_ok.mp h
      cases same
      rw [endList_closing found] at ended
      cases ended
      exact ⟨[], (spells_singleton (by rfl)).mpr found⟩
    · rename_i s' next
      split at h
      · cases h
      · rename_i a m one
        obtain ⟨t, spelled⟩ := sound one
        obtain ⟨items, others⟩ := ih h
        refine ⟨t :: items, ?_⟩
        simpa [itemTokens] using spells_append.mpr ⟨m, nextItem?_ok_some next spelled, others⟩

theorem ReadsTrees.list (h : ReadsTrees n read) (room : n + 1 ≤ nestingLimit) :
    ReadsTrees (n + 1) (list read) := by
  refine .of room (denotes_list h.denotes) fun {levels s rest a} done => ?_
  obtain ⟨c, s', found, done⟩ := atValue_ok done
  split at done
  · rename_i bracket
    subst bracket
    obtain ⟨levels, rfl, tail⟩ := oneLevelDown_ok done
    rw [listTail_eq] at tail
    obtain ⟨items, inner⟩ := itemsToEnd_ok h.sound tail
    exact ⟨.array items, spells_array.mpr ⟨s', found, inner⟩⟩
  · exact absurd done wrongKind_ne_ok

theorem ReadsTrees.decode_list (h : ReadsTrees n read) (room : n + 1 ≤ nestingLimit) (t : Tree) :
    decode (Json.list read) t = listValue (decode read) t :=
  Denotes.decode_eq (denotes_list h.denotes) room t

end Lists

end CommandDeck.Json
