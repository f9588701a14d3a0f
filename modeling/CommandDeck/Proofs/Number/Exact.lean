import CommandDeck.Json.Reader
import CommandDeck.Manifest.Basic

/-!
# Numbers that need no rounding

A whole number of units that is the magnitude of a double is rounded to that double. So a double that
denotes an integer of at most 53 bits is the double nearest to that integer.
-/

namespace CommandDeck

namespace Binary64

theorem pow_two_pos (e : Nat) : 0 < Nat.pow 2 e := Nat.pow_pos (by decide)

theorem nearest_mul (n : Nat) {d : Nat} (positive : 0 < d) : nearest (n * d) d = n := by
  simp [nearest, Nat.mul_div_cancel n positive, positive]

theorem log2_units {x : Binary64} (normal : 0x10000000000000 ≤ x.significand) :
    x.units.log2 = 52 + x.exponent := by
  have positive : 0 < 2 ^ x.exponent := pow_two_pos _
  have nonzero : x.units ≠ 0 := Nat.mul_ne_zero (by omega) (Nat.ne_of_gt positive)
  rw [Nat.log2_eq_iff nonzero, Nat.add_right_comm, Nat.pow_add, Nat.pow_add]
  exact ⟨Nat.mul_le_mul_right _ normal, Nat.mul_lt_mul_of_pos_right x.significand_lt positive⟩

/-- The place of the last bit of a double is found from its magnitude. -/
theorem place_units (x : Binary64) : x.units.log2 - 52 = x.exponent := by
  rcases x.normal with least | normal
  · have small : x.units.log2 < 53 := by
      by_cases zero : x.units = 0
      · rw [zero, Nat.log2_zero]
        decide
      · rw [Nat.log2_lt zero, units, least]
        simpa using x.significand_lt
    omega
  · rw [log2_units normal]
    omega

theorem ofUnits?_units (negative : Bool) (x : Binary64) :
    ofUnits? negative x.units 1 = some (x.withSign negative) := by
  have rounded : nearest x.units (1 * Nat.pow 2 x.exponent) = x.significand := by
    rw [Nat.one_mul]
    exact nearest_mul x.significand (pow_two_pos _)
  have below : x.significand ≠ 0x20000000000000 := Nat.ne_of_lt x.significand_lt
  simp only [ofUnits?, Nat.div_one, place_units, rounded, if_neg below]
  exact dif_pos ⟨x.significand_lt, x.normal, x.exponent_le⟩

/-- A whole number of absolute value at most `2 ^ 53`. -/
def IsWhole (x : Binary64) : Prop := ∃ k ≤ 0x20000000000000, x.units = k * unitsPerOne

theorem unitsPerOne_pos : 0 < unitsPerOne := by
  unfold unitsPerOne
  generalize 1074 = e
  exact pow_two_pos e

theorem zero_isWhole (negative : Bool) : (zero.withSign negative).IsWhole := by
  have units : zero.units = 0 * unitsPerOne := by decide +kernel
  exact ⟨0, by decide, units⟩

theorem one_isWhole (negative : Bool) : (one.withSign negative).IsWhole := by
  have units : one.units = 1 * unitsPerOne := by decide +kernel
  exact ⟨1, by decide, units⟩

theorem whole?_eq {x : Binary64} {k : Nat} (small : k ≤ 0x20000000000000)
    (value : x.units = k * unitsPerOne) :
    x.whole? = some (if x.negative then -(k : Int) else k) := by
  have remainder : x.units % unitsPerOne < Nat.pow 2 1022 := by
    rw [value, Nat.mul_mod_left]
    generalize 1022 = e
    exact pow_two_pos e
  have bound : x.units ≤ 0x20000000000000 * unitsPerOne := by
    rw [value]
    exact Nat.mul_le_mul_right unitsPerOne small
  have quotient : x.units / unitsPerOne = k := by
    rw [value, Nat.mul_div_cancel k unitsPerOne_pos]
  rw [whole?, if_pos ⟨remainder, bound⟩]
  simp only [← Int.natCast_ediv, quotient]

theorem natAbs_le_of_whole? {x : Binary64} {i : Int} (h : x.whole? = some i) :
    i.natAbs ≤ 0x20000000000000 := by
  unfold whole? at h
  split at h
  · rename_i near
    have bound : x.units / unitsPerOne ≤ 0x20000000000000 := Nat.div_le_of_le_mul (by
      rw [Nat.mul_comm]
      exact near.2)
    simp only [← Int.natCast_ediv] at h
    generalize x.units / unitsPerOne = size at h bound
    cases h
    split <;> omega
  · cases h

theorem eq_zero_of_units {x : Binary64} (h : x.units = 0) (positive : x.negative = false) :
    x = zero := by
  obtain ⟨negative, significand, exponent, hlt, normal, hle⟩ := x
  have none : significand = 0 := by
    rcases Nat.mul_eq_zero.mp h with none | impossible
    · exact none
    · exact absurd impossible (Nat.ne_of_gt (pow_two_pos _))
  have least : exponent = 0 := by
    rcases normal with least | normal
    · exact least
    · omega
  subst none least positive
  rfl

theorem units_withSign (x : Binary64) (negative : Bool) :
    (x.withSign negative).units = x.units := rfl

end Binary64

namespace Json

open Binary64

/-- Writing a whole number as an integer loses nothing but the sign of zero. -/
theorem doubleOfInt_whole {x : Binary64} {k : Nat} (value : x.units = k * unitsPerOne) :
    doubleOfInt (if x.negative then -(k : Int) else k) = x.plainZero := by
  have size : (if x.negative then -(k : Int) else (k : Int)).natAbs = k := by
    split <;> simp
  rw [doubleOfInt, ofInt?, size, ← value, ofUnits?_units, Option.getD_some, plainZero]
  by_cases zero : x.units = 0
  · have none : k = 0 := by
      rcases Nat.mul_eq_zero.mp (value.symm.trans zero) with none | impossible
      · exact none
      · exact absurd impossible (Nat.ne_of_gt unitsPerOne_pos)
    rw [if_pos zero]
    exact eq_zero_of_units ((units_withSign x _).trans zero) (by simp [withSign, none])
  · have some : 0 < k := by
      rcases Nat.eq_zero_or_pos k with none | some
      · exact absurd (by rw [value, none, Nat.zero_mul]) zero
      · exact some
    rw [if_neg zero]
    have sign : decide ((if x.negative then -(k : Int) else (k : Int)) < 0) = x.negative := by
      cases x.negative with
      | true => simp [some]
      | false => simp
    rw [sign]
    rfl

end Json

end CommandDeck
