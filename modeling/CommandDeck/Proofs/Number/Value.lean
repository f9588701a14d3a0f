import Mathlib.Algebra.Order.Field.Rat
import Mathlib.Data.Nat.Cast.Order.Field
import Mathlib.Tactic.FieldSimp
import Mathlib.Tactic.Positivity
import CommandDeck.Proofs.Number.Exact

/-!
# The number a double denotes

Every finite double denotes a rational number, its magnitude in units divided by the units in one. The
integer that stands for a double denotes the same number, unless the double is closer to zero than
`2 ^ -52`: only there is the part that is dropped more than nothing, since a double of a greater
magnitude has its last bit above that place or stands a whole unit of it away from the next integer.
-/

namespace CommandDeck

namespace Binary64

/-- The number that is denoted. -/
def toRat (x : Binary64) : ℚ := (if x.negative then -1 else 1) * ((x.units : ℚ) / unitsPerOne)

/-- A number other than zero that is closer to zero than `2 ^ -52`. -/
def IsTiny (x : Binary64) : Prop := x.toRat ≠ 0 ∧ |x.toRat| < 1 / 2 ^ 52

theorem unitsPerOne_cast_pos : (0 : ℚ) < unitsPerOne := Nat.cast_pos.mpr unitsPerOne_pos

theorem abs_toRat (x : Binary64) : |x.toRat| = (x.units : ℚ) / unitsPerOne := by
  have size : (0 : ℚ) ≤ (x.units : ℚ) / unitsPerOne :=
    div_nonneg (Nat.cast_nonneg _) unitsPerOne_cast_pos.le
  have sign : |if x.negative then (-1 : ℚ) else 1| = 1 := by
    cases x.negative <;> simp
  rw [toRat, abs_mul, abs_of_nonneg size, sign, one_mul]

theorem toRat_eq_zero_iff {x : Binary64} : x.toRat = 0 ↔ x.units = 0 := by
  rw [← abs_eq_zero, abs_toRat, div_eq_zero_iff, or_iff_left unitsPerOne_cast_pos.ne',
    Nat.cast_eq_zero]

theorem toRat_plainZero (x : Binary64) : x.plainZero.toRat = x.toRat := by
  by_cases zero : x.units = 0
  · have plain : x.plainZero = .zero := if_pos zero
    have none : Binary64.zero.toRat = 0 := toRat_eq_zero_iff.mpr rfl
    rw [plain, none, toRat_eq_zero_iff.mpr zero]
  · have plain : x.plainZero = x := if_neg zero
    rw [plain]

theorem toRat_of_units {x : Binary64} {k : Nat} (value : x.units = k * unitsPerOne) :
    x.toRat = ((if x.negative then -(k : Int) else k : Int) : ℚ) := by
  have size : (x.units : ℚ) / unitsPerOne = k := by
    rw [value, Nat.cast_mul, mul_div_cancel_right₀ _ unitsPerOne_cast_pos.ne']
  rw [toRat, size]
  cases x.negative <;> simp

theorem units_of_toRat {x : Binary64} {i : Int} (value : x.toRat = i) :
    x.units = i.natAbs * unitsPerOne := by
  have size : (x.units : ℚ) / unitsPerOne = (i.natAbs : ℚ) := by
    rw [← abs_toRat, value, ← Int.cast_abs, Int.abs_eq_natAbs, Int.cast_natCast]
  have product := (div_eq_iff unitsPerOne_cast_pos.ne').mp size
  exact_mod_cast product

/-- A number of `w` bits has nothing after the point, or is below one, when what it has after the point
is less than two units of the place where the bits of numbers just below one end. -/
theorem remainder_small {s w e f : Nat} (bits : s < 2 ^ w)
    (small : s * 2 ^ e % 2 ^ (f + w) < 2 ^ (f + 1)) :
    s * 2 ^ e % 2 ^ (f + w) = 0 ∨ s * 2 ^ e < 2 ^ (f + 1) := by
  by_cases low : e ≤ f
  · -- the number is below one, so all of it is after the point
    have below : s * 2 ^ e < 2 ^ (f + w) := by
      calc s * 2 ^ e < 2 ^ w * 2 ^ e := Nat.mul_lt_mul_of_pos_right bits (pow_two_pos e)
        _ ≤ 2 ^ w * 2 ^ f := Nat.mul_le_mul_left _ (Nat.pow_le_pow_right (by decide) low)
        _ = 2 ^ (f + w) := by rw [Nat.pow_add, Nat.mul_comm]
    rw [Nat.mod_eq_of_lt below] at small
    exact Or.inr small
  · -- no bit stands below the place of `2 ^ (f + 1)`
    have number : 2 ^ (f + 1) ∣ s * 2 ^ e := Dvd.dvd.mul_left (Nat.pow_dvd_pow 2 (by omega)) s
    by_cases none : w = 0
    · subst none
      exact Or.inl (by rw [Nat.lt_one_iff.mp bits, Nat.zero_mul, Nat.zero_mod])
    · have one : 2 ^ (f + 1) ∣ 2 ^ (f + w) := Nat.pow_dvd_pow 2 (by omega)
      exact Or.inl (Nat.eq_zero_of_dvd_of_lt ((Nat.dvd_mod_iff one).mpr number) small)

theorem whole_or_tiny {x : Binary64} (small : x.units % unitsPerOne < Nat.pow 2 1022) :
    x.units % unitsPerOne = 0 ∨ x.units < Nat.pow 2 1022 := by
  have places : ∃ f, 1074 = f + 53 ∧ 1022 = f + 1 := ⟨1021, rfl, rfl⟩
  unfold unitsPerOne at small ⊢
  generalize 1074 = one, 1022 = least at places small ⊢
  obtain ⟨f, rfl, rfl⟩ := places
  exact remainder_small x.significand_lt small

/-- One is `2 ^ 52` times the bound that the part after the point is below. -/
theorem unitsPerOne_eq : unitsPerOne = Nat.pow 2 1022 * 2 ^ 52 := by
  have places : 1074 = 1022 + 52 := rfl
  unfold unitsPerOne
  generalize 1074 = one, 1022 = least at places ⊢
  rw [places]
  exact Nat.pow_add 2 least 52

theorem abs_toRat_lt_iff {x : Binary64} : |x.toRat| < 1 / 2 ^ 52 ↔ x.units < Nat.pow 2 1022 := by
  rw [abs_toRat, div_lt_div_iff₀ unitsPerOne_cast_pos (by positivity), one_mul]
  have powers : (0 : Nat) < 2 ^ 52 := by decide
  rw [← Nat.mul_lt_mul_right powers, ← unitsPerOne_eq]
  exact_mod_cast Iff.rfl

theorem lt_unitsPerOne {n : Nat} (small : n < Nat.pow 2 1022) : n < unitsPerOne := by
  have factor : (0 : Nat) < 2 ^ 52 := by decide
  rw [unitsPerOne_eq]
  generalize 1022 = least at small ⊢
  exact Nat.lt_of_lt_of_le small (Nat.le_mul_of_pos_right _ factor)

theorem whole?_of_lt {x : Binary64} (small : x.units < Nat.pow 2 1022) : x.whole? = some 0 := by
  have below := lt_unitsPerOne small
  have remainder : x.units % unitsPerOne < Nat.pow 2 1022 :=
    Nat.lt_of_le_of_lt (Nat.mod_le _ _) small
  have bound : x.units ≤ 0x20000000000000 * unitsPerOne :=
    Nat.le_trans below.le (Nat.le_mul_of_pos_left _ (by decide))
  have none : x.units / unitsPerOne = 0 := Nat.div_eq_of_lt below
  rw [whole?, if_pos ⟨remainder, bound⟩]
  simp only [← Int.natCast_ediv, none]
  simp

theorem IsTiny.whole?_eq {x : Binary64} (tiny : x.IsTiny) : x.whole? = some 0 :=
  whole?_of_lt (abs_toRat_lt_iff.mp tiny.2)

/-- The integer that stands for a double is the number it denotes, unless the double is tiny. -/
theorem toRat_of_whole? {x : Binary64} {i : Int} (whole : x.whole? = some i) :
    x.toRat = i ∨ (x.IsTiny ∧ i = 0) := by
  have near : x.units % unitsPerOne < Nat.pow 2 1022 ∧
      x.units ≤ 0x20000000000000 * unitsPerOne := by
    by_contra far
    rw [whole?, if_neg far] at whole
    cases whole
  rcases whole_or_tiny near.1 with exactly | small
  · have value : x.units = x.units / unitsPerOne * unitsPerOne :=
      (Nat.div_mul_cancel (Nat.dvd_of_mod_eq_zero exactly)).symm
    have bound : x.units / unitsPerOne ≤ 0x20000000000000 := Nat.div_le_of_le_mul (by
      rw [Nat.mul_comm]
      exact near.2)
    obtain rfl := Option.some.inj ((whole?_eq bound value).symm.trans whole)
    exact Or.inl (toRat_of_units value)
  · obtain rfl := Option.some.inj ((whole?_of_lt small).symm.trans whole)
    by_cases zero : x.toRat = 0
    · exact Or.inl (zero.trans Int.cast_zero.symm)
    · exact Or.inr ⟨⟨zero, abs_toRat_lt_iff.mpr small⟩, rfl⟩

theorem whole?_of_toRat {x : Binary64} {i : Int} (value : x.toRat = i)
    (small : i.natAbs ≤ 0x20000000000000) : x.whole? = some i := by
  have whole := whole?_eq small (units_of_toRat value)
  have same : x.toRat = ((if x.negative then -(i.natAbs : Int) else i.natAbs : Int) : ℚ) :=
    toRat_of_units (units_of_toRat value)
  rw [whole, Int.cast_injective (same.symm.trans value)]

end Binary64

end CommandDeck
