import Mathlib.Algebra.Field.Rat
import Mathlib.Algebra.Order.Field.Rat
import Mathlib.Tactic.NormNum
import CommandDeck.Proofs.Json.Decoding

/-!
# The numbers that texts denote

A number of a document denotes a rational number: its digits as a natural number, shifted by the digits
after the point and by the exponent. A literal without point and exponent denotes an integer. It is read
as exactly this integer, or as a double; and then it is minus zero, or the integer is none of 64 bits
with the sign.
-/

namespace CommandDeck.Json

open Text (isDigit digitValue)

/-- The power of ten that stands after the letter of an exponent. -/
def exponentValue (s : List Char) : Int :=
  let power : Int := Nat.ofDigitChars 10 (exponentSign s).2 0
  if (exponentSign s).1 then -power else power

/-- The digits after the point of a number, and the exponent with its letter. -/
def afterWhole : List Char → List Char × List Char
  | '.' :: rest => (rest.takeWhile isDigit, rest.dropWhile isDigit)
  | rest => ([], rest)

/-- The number that a text without sign denotes. -/
def decimalValue (s : List Char) : ℚ :=
  let tail := afterWhole (s.dropWhile isDigit)
  (Nat.ofDigitChars 10 (s.takeWhile isDigit ++ tail.1) 0 : ℚ) *
    10 ^ (exponentValue tail.2.tail - tail.1.length)

/-- The number that a scalar denotes, if it is one. -/
def Scalar.number? : Scalar → Option ℚ
  | .number negative u => some (if negative then -decimalValue u.text else decimalValue u.text)
  | _ => none

/-- The integer that digits with a sign before them denote. -/
def signedValue (negative : Bool) (ds : List Char) : Int :=
  if negative then -(Nat.ofDigitChars 10 ds 0 : Int) else Nat.ofDigitChars 10 ds 0

theorem decimalValue_eq {s : List Char} {n : Nat} {e : Int}
    (digits : Nat.ofDigitChars 10
      (s.takeWhile isDigit ++ (afterWhole (s.dropWhile isDigit)).1) 0 = n)
    (power : exponentValue (afterWhole (s.dropWhile isDigit)).2.tail -
      (afterWhole (s.dropWhile isDigit)).1.length = e) : decimalValue s = n * 10 ^ e := by
  simp only [decimalValue, digits, power]

theorem decimalValue_digits {ds : List Char} (digits : ∀ c ∈ ds, isDigit c = true) :
    decimalValue ds = Nat.ofDigitChars 10 ds 0 := by
  have stops : Stops [] := ends_nil.stops
  have taken := takeWhile_isDigit digits stops
  have dropped := dropWhile_isDigit digits stops
  rw [List.append_nil] at taken dropped
  simp [decimalValue, taken, dropped, afterWhole, exponentValue, exponentSign]

theorem number?_digits {negative : Bool} {u : Unsigned} (digits : ∀ c ∈ u.text, isDigit c = true) :
    (Scalar.number negative u).number? = some (signedValue negative u.text : ℚ) := by
  rw [Scalar.number?, decimalValue_digits digits, signedValue]
  cases negative <;> simp

/-! ### Digits that are gathered -/

theorem le_gatherWhole (ds : List Char) (n extra : Nat) : extra ≤ (gatherWhole ds n extra).2 := by
  induction ds generalizing n extra with
  | nil => exact Nat.le_refl extra
  | cons d ds ih =>
    rw [gatherWhole]
    split
    · exact Nat.le_of_succ_le (ih n (extra + 1))
    · exact ih _ extra

/-- When no digit was left out, the significand is the number. -/
theorem gatherWhole_exact {ds : List Char} {n : Nat} (complete : (gatherWhole ds n 0).2 = 0) :
    (gatherWhole ds n 0).1 = Nat.ofDigitChars 10 ds n := by
  induction ds generalizing n with
  | nil => simp [gatherWhole]
  | cons d ds ih =>
    by_cases full : 0 < 0 ∨ significandLimit < n * 10 + digitValue d
    · rw [gatherWhole, if_pos full] at complete
      have more := le_gatherWhole ds n (0 + 1)
      omega
    · rw [gatherWhole, if_neg full] at complete ⊢
      rw [ofDigitChars_cons]
      exact ih complete

/-- When a digit was left out, the number does not fit. -/
theorem lt_of_gatherWhole {ds : List Char} (short : (gatherWhole ds 0 0).2 ≠ 0) :
    significandLimit < Nat.ofDigitChars 10 ds 0 := by
  by_contra fits
  rw [gatherWhole_eq (Nat.le_of_not_lt fits)] at short
  exact short rfl

/-! ### Integer literals -/

section Literals

variable {u : Unsigned} {negative : Bool}

theorem value?_whole (whole : WholeDigits u.text) (negative : Bool) :
    u.value? negative =
      if (gatherWhole u.text 0 0).2 = 0 then
        some (wholeNumeral negative (Nat.ofDigitChars 10 u.text 0))
      else (Binary64.ofDecimal? negative (gatherWhole u.text 0 0).1 (gatherWhole u.text 0 0).2).map
        .float := by
  have read := readNumeral_wholeDigits negative whole (ends_nil.stops)
  rw [List.append_nil, readAfterWhole_ends _ _ _ ends_nil] at read
  rw [Unsigned.value?, read]
  split
  · rename_i complete
    rw [gatherWhole_exact complete]
    rfl
  · rw [floatNumeral_def]
    dsimp only
    cases Binary64.ofDecimal? negative (gatherWhole u.text 0 0).1 (gatherWhole u.text 0 0).2 <;> rfl

theorem wholeNumeral_integer {k : Nat} {i : Int} (read : wholeNumeral negative k = .integer i) :
    i = if negative then -(k : Int) else k := by
  unfold wholeNumeral at read
  split at read
  · rename_i minus
    rw [if_pos minus]
    split at read
    · exact (Numeral.integer.inj read).symm
    · split at read <;> cases read
  · rename_i plus
    rw [if_neg plus]
    exact (Numeral.integer.inj read).symm

theorem wholeNumeral_minus_zero : wholeNumeral true 0 = .float (Binary64.zero.withSign true) := by
  have zero : Binary64.ofNat? 0 = some Binary64.zero := by decide +kernel
  unfold wholeNumeral
  rw [if_pos rfl, if_neg (by decide), zero]

/-- Only with a minus sign are digits that fit 64 bits read as a double. -/
theorem wholeNumeral_float {k : Nat} {x : Binary64} (read : wholeNumeral negative k = .float x) :
    negative = true ∧ (k = 0 ∨ 0x8000000000000000 < k) := by
  unfold wholeNumeral at read
  split at read
  · rename_i minus
    refine ⟨minus, ?_⟩
    split at read
    · cases read
    · omega
  · cases read

/-- An integer literal that is read as an integer is read as the integer it denotes. -/
theorem integer_of_value? (whole : WholeDigits u.text) {i : Int}
    (read : u.value? negative = some (.integer i)) : i = signedValue negative u.text := by
  rw [value?_whole whole] at read
  split at read
  · exact wholeNumeral_integer (Option.some.inj read)
  · obtain ⟨x, -, other⟩ := Option.map_eq_some_iff.mp read
    cases other

/-- The integers of 64 bits with the sign. -/
def FitsSigned (i : Int) : Prop := -0x8000000000000000 ≤ i ∧ i < 0x8000000000000000

instance (i : Int) : Decidable (FitsSigned i) :=
  inferInstanceAs (Decidable (-0x8000000000000000 ≤ i ∧ i < 0x8000000000000000))

/-- An integer literal that is read as a double is minus zero, or its integer does not fit. -/
theorem double_of_value? (whole : WholeDigits u.text) {x : Binary64}
    (read : u.value? negative = some (.float x)) (fits : FitsSigned (signedValue negative u.text)) :
    signedValue negative u.text = 0 ∧ x = Binary64.zero.withSign true := by
  unfold FitsSigned signedValue at fits
  unfold signedValue
  rw [value?_whole whole] at read
  split at read
  · obtain ⟨rfl, size⟩ := wholeNumeral_float (Option.some.inj read)
    rw [if_pos rfl] at fits
    have none : Nat.ofDigitChars 10 u.text 0 = 0 := by omega
    rw [none, wholeNumeral_minus_zero] at read
    cases read
    exact ⟨by rw [none]; rfl, rfl⟩
  · rename_i short
    have great := lt_of_gatherWhole short
    unfold significandLimit at great
    split at fits <;> omega

end Literals

end CommandDeck.Json
