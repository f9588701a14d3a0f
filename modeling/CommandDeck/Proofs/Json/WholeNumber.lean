import CommandDeck.Json.Numeral

/-!
# Whole numbers read back

The digits of a natural number of at most 64 bits are read as that number, with or without a sign
before them, wherever the text does not go on as a number.
-/

namespace CommandDeck

namespace Text

theorem isDigit_eq (c : Char) : isDigit c = c.isDigit := rfl

end Text

namespace NumberLayout

theorem isDigit_of_mem_digits {n : Nat} {c : Char} (h : c ∈ digits n) : Text.isDigit c = true := by
  rw [Text.isDigit_eq]
  exact Nat.isDigit_of_mem_toDigits (by decide) (by decide) h

theorem ofDigitChars_digits (n : Nat) : Nat.ofDigitChars 10 (digits n) 0 = n :=
  Nat.ofDigitChars_ten_toDigits

/-- Zero is the only number whose digits begin with a zero. -/
theorem digits_head {n : Nat} {rest : List Char} (h : digits n = '0' :: rest) : rest = [] := by
  induction n using Nat.strongRecOn generalizing rest with
  | ind n ih =>
    by_cases small : n < 10
    · rw [digits, Nat.toDigits_of_lt_base small] at h
      exact (List.cons.inj h).2.symm
    · have split : digits n = digits (n / 10) ++ [Nat.digitChar (n % 10)] :=
        Nat.toDigits_of_base_le (by decide) (by omega)
      obtain ⟨c, more, parts⟩ := List.exists_cons_of_ne_nil
        (show digits (n / 10) ≠ [] from Nat.toDigits_ne_nil)
      rw [split, parts, List.cons_append] at h
      obtain ⟨rfl, -⟩ := List.cons.inj h
      have zero := ih (n / 10) (by omega) parts
      rw [zero] at parts
      have value := ofDigitChars_digits (n / 10)
      rw [parts] at value
      have none : Nat.ofDigitChars 10 ['0'] 0 = 0 := by decide
      omega

end NumberLayout

namespace Json

open Text (isDigit digitValue)

/-- No number goes on with this text. -/
def Ends (rest : List Char) : Prop :=
  ∀ c ∈ rest.head?, isDigit c = false ∧ c ≠ '.' ∧ c ≠ 'e' ∧ c ≠ 'E'

theorem ends_nil : Ends [] := by
  intro c h
  cases h

theorem ends_cons {c : Char} {rest : List Char} :
    Ends (c :: rest) ↔ isDigit c = false ∧ c ≠ '.' ∧ c ≠ 'e' ∧ c ≠ 'E' := by
  simp [Ends]

/-- The text does not go on with a digit. -/
def Stops (rest : List Char) : Prop := ∀ c ∈ rest.head?, isDigit c = false

theorem stops_cons {c : Char} {rest : List Char} : Stops (c :: rest) ↔ isDigit c = false := by
  simp [Stops]

theorem Ends.stops {rest : List Char} (ends : Ends rest) : Stops rest := fun c h => (ends c h).1

theorem takeWhile_isDigit {ds rest : List Char} (digits : ∀ c ∈ ds, isDigit c = true)
    (stops : Stops rest) : (ds ++ rest).takeWhile isDigit = ds := by
  rw [List.takeWhile_append_of_pos digits]
  cases rest with
  | nil => simp
  | cons c rest => simp [stops_cons.mp stops]

theorem dropWhile_isDigit {ds rest : List Char} (digits : ∀ c ∈ ds, isDigit c = true)
    (stops : Stops rest) : (ds ++ rest).dropWhile isDigit = rest := by
  rw [List.dropWhile_append_of_pos digits]
  cases rest with
  | nil => simp
  | cons c rest => simp [stops_cons.mp stops]

/-- One digit more, with its value as the readers take it. -/
theorem ofDigitChars_cons (d : Char) (ds : List Char) (n : Nat) :
    Nat.ofDigitChars 10 (d :: ds) n = Nat.ofDigitChars 10 ds (n * 10 + digitValue d) := by
  rw [Nat.ofDigitChars_cons, Nat.mul_comm]
  rfl

theorem le_ofDigitChars (ds : List Char) (n : Nat) : n ≤ Nat.ofDigitChars 10 ds n := by
  induction ds generalizing n with
  | nil => simp
  | cons d ds ih =>
    rw [ofDigitChars_cons]
    exact Nat.le_trans (by omega) (ih _)

/-- As long as the whole fits, no digit is left out. -/
theorem gatherWhole_eq {ds : List Char} {n : Nat}
    (fits : Nat.ofDigitChars 10 ds n ≤ significandLimit) :
    gatherWhole ds n 0 = (Nat.ofDigitChars 10 ds n, 0) := by
  induction ds generalizing n with
  | nil => simp [gatherWhole]
  | cons d ds ih =>
    rw [ofDigitChars_cons] at fits ⊢
    have bound := Nat.le_trans (le_ofDigitChars ds _) fits
    rw [gatherWhole, if_neg (by omega)]
    exact ih fits

/-- One digit or more. -/
structure Digits (ds : List Char) : Prop where
  digits : ∀ c ∈ ds, isDigit c = true
  ne_nil : ds ≠ []

/-- Digits with which a number can begin: a zero stands only alone. -/
structure WholeDigits (ds : List Char) : Prop extends Digits ds where
  alone : ∀ more, ds = '0' :: more → more = []

/-- Digits with which a number can begin and that fit the significand. -/
structure WholePart (ds : List Char) : Prop extends WholeDigits ds where
  fits : Nat.ofDigitChars 10 ds 0 ≤ significandLimit

theorem Digits.exists_cons {ds : List Char} (h : Digits ds) :
    ∃ c more, ds = c :: more ∧ isDigit c = true := by
  obtain ⟨c, more, rfl⟩ := List.exists_cons_of_ne_nil h.ne_nil
  exact ⟨c, more, rfl, h.digits c List.mem_cons_self⟩

/-- No digit follows a zero at the beginning. -/
theorem WholeDigits.unpadded {c : Char} {more rest : List Char} (h : WholeDigits (c :: more))
    (stops : Stops rest) : ¬ (c = '0' ∧ ((more ++ rest).head?.any isDigit) = true) := by
  rintro ⟨rfl, another⟩
  rw [h.alone more rfl] at another
  cases rest with
  | nil => cases another
  | cons d rest => simp [stops_cons.mp stops] at another

/-- Reads what follows the digits before the point, of which `extra` were left out. -/
def readAfterWhole (negative : Bool) (significand extra : Nat) :
    List Char → Except ReadError (Numeral × List Char)
  | '.' :: rest => readFraction negative significand extra rest
  | 'e' :: rest => readExponent negative significand extra rest
  | 'E' :: rest => readExponent negative significand extra rest
  | rest =>
    if extra = 0 then .ok (wholeNumeral negative significand, rest)
    else floatNumeral negative significand extra rest

theorem readAfterWhole_ends (negative : Bool) (significand extra : Nat) {rest : List Char}
    (ends : Ends rest) :
    readAfterWhole negative significand extra rest =
      if extra = 0 then .ok (wholeNumeral negative significand, rest)
      else floatNumeral negative significand extra rest := by
  unfold readAfterWhole
  split
  · exact absurd rfl (ends_cons.mp ends).2.1
  · exact absurd rfl (ends_cons.mp ends).2.2.1
  · exact absurd rfl (ends_cons.mp ends).2.2.2
  · rfl

theorem readNumeral_wholeDigits (negative : Bool) {ds : List Char} (whole : WholeDigits ds)
    {rest : List Char} (stops : Stops rest) :
    readNumeral negative (ds ++ rest) =
      readAfterWhole negative (gatherWhole ds 0 0).1 (gatherWhole ds 0 0).2 rest := by
  have taken := takeWhile_isDigit whole.digits stops
  have dropped := dropWhile_isDigit whole.digits stops
  obtain ⟨c, more, rfl, first⟩ := whole.exists_cons
  rw [List.cons_append] at taken dropped ⊢
  simp only [readNumeral, first, if_true, if_neg (whole.unpadded stops), taken, dropped]
  rfl

theorem readNumeral_whole (negative : Bool) {ds : List Char} (whole : WholePart ds)
    {rest : List Char} (stops : Stops rest) :
    readNumeral negative (ds ++ rest) =
      readAfterWhole negative (Nat.ofDigitChars 10 ds 0) 0 rest := by
  rw [readNumeral_wholeDigits negative whole.toWholeDigits stops, gatherWhole_eq whole.fits]

theorem wholePart_digits {n : Nat} (fits : n ≤ significandLimit) :
    WholePart (NumberLayout.digits n) where
  digits := fun _ => NumberLayout.isDigit_of_mem_digits
  ne_nil := Nat.toDigits_ne_nil
  alone := fun _ => NumberLayout.digits_head
  fits := by rwa [NumberLayout.ofDigitChars_digits]

theorem readNumeral_digits (negative : Bool) {n : Nat} (fits : n ≤ significandLimit)
    {rest : List Char} (ends : Ends rest) :
    readNumeral negative (NumberLayout.digits n ++ rest) =
      .ok (wholeNumeral negative n, rest) := by
  rw [readNumeral_whole negative (wholePart_digits fits) ends.stops,
    NumberLayout.ofDigitChars_digits, readAfterWhole_ends negative n 0 ends, if_pos rfl]

end Json

end CommandDeck
