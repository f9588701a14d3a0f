import Mathlib.Tactic.Ring
import CommandDeck.Proofs.Number.Exact

/-!
# Rounding keeps the order of numbers

`rounded num den` is the number of units to which `num / den` is rounded where a double may be as great
as it likes. The rounding to a double is this one, as long as the outcome is below `2 ^ 2098` units. It
grows with the numerator, so a number below one that rounds to a double rounds to a double as well. From
this it follows which decimals are read: where the exponent is not positive all of them, and otherwise
each with its significand below that of one that is read.
-/

namespace CommandDeck

namespace Binary64

theorem div_le_nearest (num den : Nat) : num / den ≤ nearest num den := by
  unfold nearest
  dsimp only
  split_ifs <;> omega

theorem nearest_le (num den : Nat) : nearest num den ≤ num / den + 1 := by
  unfold nearest
  dsimp only
  split_ifs <;> omega

theorem nearest_mono {num more : Nat} (le : num ≤ more) (den : Nat) :
    nearest num den ≤ nearest more den := by
  obtain same | less := Nat.eq_or_lt_of_le (Nat.div_le_div_right (c := den) le)
  · have split := Nat.div_add_mod num den
    have splitMore := Nat.div_add_mod more den
    rw [← same] at splitMore
    have parts : num % den ≤ more % den := by omega
    unfold nearest
    rw [← same]
    dsimp only
    split_ifs <;> omega
  · calc nearest num den ≤ num / den + 1 := nearest_le num den
      _ ≤ more / den := less
      _ ≤ nearest more den := div_le_nearest more den

/-- The place of the last bit to which `num / den` is rounded. -/
def place (num den : Nat) : Nat := (num / den).log2 - 52

/-- The bits of `num / den` down to that place, rounded. -/
def leading (num den : Nat) : Nat := nearest num (den * Nat.pow 2 (place num den))

/-- The units to which `num / den` is rounded, however many they are. -/
def rounded (num den : Nat) : Nat := leading num den * 2 ^ place num den

theorem leading_le (num den : Nat) : leading num den ≤ 0x20000000000000 := by
  have below : num / den < 2 ^ place num den * 0x20000000000000 := by
    calc num / den < 2 ^ ((num / den).log2 + 1) := Nat.lt_log2_self
      _ ≤ 2 ^ (place num den + 53) := Nat.pow_le_pow_right (by decide) (by unfold place; omega)
      _ = 2 ^ place num den * 0x20000000000000 := Nat.pow_add 2 _ 53
  calc leading num den ≤ num / (den * 2 ^ place num den) + 1 := nearest_le _ _
    _ = num / den / 2 ^ place num den + 1 := by rw [Nat.div_div_eq_div_mul]
    _ ≤ 0x20000000000000 := Nat.div_lt_of_lt_mul below

theorem le_leading {num den : Nat} (high : place num den ≠ 0) :
    0x10000000000000 ≤ leading num den := by
  have bits : (num / den).log2 = 52 + place num den := by
    unfold place at high ⊢
    omega
  have nonzero : num / den ≠ 0 := by
    intro none
    rw [none, Nat.log2_zero] at bits
    omega
  have above : 0x10000000000000 * 2 ^ place num den ≤ num / den := by
    calc 0x10000000000000 * 2 ^ place num den = 2 ^ (num / den).log2 := by rw [bits, Nat.pow_add]
      _ ≤ num / den := Nat.log2_self_le nonzero
  calc 0x10000000000000 ≤ num / den / 2 ^ place num den :=
        (Nat.le_div_iff_mul_le (pow_two_pos _)).mpr above
    _ = num / (den * 2 ^ place num den) := Nat.div_div_eq_div_mul _ _ _
    _ ≤ leading num den := div_le_nearest _ _

theorem place_mono {num more : Nat} (le : num ≤ more) (den : Nat) :
    place num den ≤ place more den := by
  have bits : (num / den).log2 ≤ (more / den).log2 := by
    by_cases none : num / den = 0
    · rw [none, Nat.log2_zero]
      exact Nat.zero_le _
    · have less : num / den ≤ more / den := Nat.div_le_div_right le
      have some : more / den ≠ 0 := Nat.ne_of_gt (Nat.lt_of_lt_of_le (Nat.pos_of_ne_zero none) less)
      exact (Nat.le_log2 some).mpr (Nat.le_trans (Nat.log2_self_le none) less)
  unfold place
  omega

theorem rounded_mono {num more : Nat} (le : num ≤ more) (den : Nat) :
    rounded num den ≤ rounded more den := by
  obtain same | higher := Nat.eq_or_lt_of_le (place_mono le den)
  · have bits : leading num den ≤ leading more den := by
      unfold leading
      rw [same]
      exact nearest_mono le _
    unfold rounded
    rw [same]
    exact Nat.mul_le_mul_right _ bits
  · have full : 0x10000000000000 ≤ leading more den := le_leading (by omega)
    calc rounded num den ≤ 0x20000000000000 * 2 ^ place num den :=
          Nat.mul_le_mul_right _ (leading_le num den)
      _ = 0x10000000000000 * 2 ^ (place num den + 1) := by rw [Nat.pow_succ]; omega
      _ ≤ 0x10000000000000 * 2 ^ place more den :=
          Nat.mul_le_mul_left _ (Nat.pow_le_pow_right (by decide) higher)
      _ ≤ rounded more den := Nat.mul_le_mul_right _ full

theorem rounded_units (x : Binary64) {d : Nat} (positive : 0 < d) :
    rounded (x.units * d) d = x.units := by
  have at_place : place (x.units * d) d = x.exponent := by
    rw [place, Nat.mul_div_cancel _ positive, place_units]
  have bits : leading (x.units * d) d = x.significand := by
    have grid : x.units * d = x.significand * (d * Nat.pow 2 x.exponent) := by
      rw [units, Nat.mul_assoc, Nat.mul_comm d]
    rw [leading, at_place, grid]
    exact nearest_mul _ (Nat.mul_pos positive (pow_two_pos _))
  rw [rounded, bits, at_place]
  rfl

/-- The number of units of every double has fewer bits than one more than this. -/
def bitLimit : Nat := 2098

/-- The least number of units that is too great for a double. -/
def beyond : Nat := 2 ^ bitLimit

/-- The significand and the exponent of a rounded number. -/
theorem exists_parts (num den : Nat) :
    ∃ significand exponent, significand * 2 ^ exponent = rounded num den ∧
      significand < 0x20000000000000 ∧ (exponent = 0 ∨ 0x10000000000000 ≤ significand) ∧
      ∀ negative, ofUnits? negative num den =
        if h : significand < 0x20000000000000 ∧ (exponent = 0 ∨ 0x10000000000000 ≤ significand) ∧
          exponent ≤ 2045 then
        some ⟨negative, significand, exponent, h.1, h.2.1, h.2.2⟩ else none := by
  by_cases carry : leading num den = 0x20000000000000
  · refine ⟨0x10000000000000, place num den + 1, ?_, by decide, Or.inr (by decide), ?_⟩
    · rw [rounded, carry, Nat.pow_succ]
      omega
    · intro negative
      unfold leading place at carry
      simp only [ofUnits?, carry, if_true]
      rfl
  · have bits := leading_le num den
    refine ⟨leading num den, place num den, rfl, by omega, ?_, ?_⟩
    · by_cases least : place num den = 0
      · exact Or.inl least
      · exact Or.inr (le_leading least)
    · intro negative
      unfold leading place at carry
      simp only [ofUnits?, carry, if_false]
      rfl

/-- A number is rounded to a double exactly when the outcome is not beyond all doubles. -/
theorem ofUnits?_eq_some (negative : Bool) {num den : Nat} (small : rounded num den < beyond) :
    ∃ x, ofUnits? negative num den = some x ∧ x.units = rounded num den := by
  obtain ⟨significand, exponent, value, bits, normal, parts⟩ := exists_parts num den
  have le : exponent ≤ 2045 := by
    rcases normal with least | normal
    · omega
    · have power : 2 ^ (52 + exponent) < 2 ^ bitLimit := by
        calc 2 ^ (52 + exponent) = 0x10000000000000 * 2 ^ exponent := Nat.pow_add 2 52 exponent
          _ ≤ significand * 2 ^ exponent := Nat.mul_le_mul_right _ normal
          _ < 2 ^ bitLimit := by rw [value]; exact small
      have bits : 52 + exponent < bitLimit := (Nat.pow_lt_pow_iff_right (by decide)).mp power
      unfold bitLimit at bits
      omega
  exact ⟨_, (parts negative).trans (dif_pos ⟨bits, normal, le⟩), value⟩

theorem of_ofUnits? {negative : Bool} {num den : Nat} {x : Binary64}
    (h : ofUnits? negative num den = some x) :
    x.negative = negative ∧ x.units = rounded num den := by
  obtain ⟨significand, exponent, value, bits, normal, parts⟩ := exists_parts num den
  rw [parts] at h
  split at h
  · cases h
    exact ⟨rfl, value⟩
  · cases h

theorem units_lt_beyond (x : Binary64) : x.units < beyond := by
  have bits : 53 + x.exponent ≤ bitLimit := Nat.add_le_add_left x.exponent_le 53
  calc x.units < 2 ^ 53 * 2 ^ x.exponent :=
        Nat.mul_lt_mul_of_pos_right x.significand_lt (pow_two_pos _)
    _ = 2 ^ (53 + x.exponent) := (Nat.pow_add 2 53 x.exponent).symm
    _ ≤ beyond := Nat.pow_le_pow_right (by decide) bits

/-- A number below one that is rounded to a double is rounded to one that is not greater. -/
theorem ofUnits?_mono {negative : Bool} {num more den : Nat} (le : num ≤ more) {y : Binary64}
    (h : ofUnits? negative more den = some y) :
    ∃ x, ofUnits? negative num den = some x ∧ x.units ≤ y.units := by
  have bound : rounded num den ≤ y.units := by
    rw [(of_ofUnits? h).2]
    exact rounded_mono le den
  obtain ⟨x, some, value⟩ :=
    ofUnits?_eq_some negative (Nat.lt_of_le_of_lt bound y.units_lt_beyond)
  exact ⟨x, some, value ▸ bound⟩

/-! ### Decimals that are read -/

theorem ofNat?_mono {n m : Nat} (le : n ≤ m) {y : Binary64} (h : ofNat? m = some y) :
    ∃ x, ofNat? n = some x ∧ x.units ≤ y.units :=
  ofUnits?_mono (Nat.mul_le_mul_right unitsPerOne le) h

/-- The quotient by a number that is not less than one is a double. -/
theorem exists_div? (x : Binary64) {y : Binary64} (least : unitsPerOne ≤ y.units) :
    ∃ z, x.div? y = some z := by
  have positive : 0 < y.units := Nat.lt_of_lt_of_le unitsPerOne_pos least
  have bound : rounded (x.units * unitsPerOne) y.units < beyond := by
    calc rounded (x.units * unitsPerOne) y.units
        ≤ rounded (x.units * y.units) y.units := rounded_mono (Nat.mul_le_mul_left _ least) _
      _ = x.units := rounded_units x positive
      _ < beyond := x.units_lt_beyond
  obtain ⟨z, some, -⟩ := ofUnits?_eq_some (x.negative != y.negative) bound
  exact ⟨z, some⟩

theorem one_units : one.units = unitsPerOne := by decide +kernel

/-- A power of ten below one that is a double is a double, and not less than one. -/
theorem exists_tenPow?_below {k n : Nat} (le : k ≤ n) {top : Binary64}
    (h : tenPow? n = some top) : ∃ y, tenPow? k = some y ∧ unitsPerOne ≤ y.units := by
  have least : ofNat? 1 = some one := by decide +kernel
  obtain ⟨y, power, -⟩ := ofNat?_mono (Nat.pow_le_pow_right (by decide) le) h
  obtain ⟨x, same, bound⟩ := ofNat?_mono (Nat.pow_pos (by decide) : 1 ≤ 10 ^ k) power
  rw [least] at same
  cases same
  exact ⟨y, power, one_units ▸ bound⟩

theorem exists_tenPow? {k : Nat} (le : k ≤ 308) :
    ∃ y, tenPow? k = some y ∧ unitsPerOne ≤ y.units := by
  have greatest : (tenPow? 308).isSome := by decide +kernel
  obtain ⟨top, h⟩ := Option.isSome_iff_exists.mp greatest
  exact exists_tenPow?_below le h

theorem exists_quotient (x : Binary64) {k : Nat} (le : k ≤ 308) :
    ∃ y, (tenPow? k).bind x.div? = some y := by
  obtain ⟨ten, power, least⟩ := exists_tenPow? le
  rw [power, Option.bind_some]
  exact exists_div? x least

/-- A division by a power of ten never fails. -/
theorem exists_shrink? (x : Binary64) (k : Nat) : ∃ y, x.shrink? k = some y := by
  induction k using Nat.strongRecOn generalizing x with
  | ind k ih =>
    rw [shrink?]
    by_cases near : k ≤ 308
    · rw [if_pos near]
      exact exists_quotient x near
    · rw [if_neg near]
      by_cases none : x.units = 0
      · exact ⟨x, if_pos none⟩
      · obtain ⟨y, quotient⟩ := exists_quotient x (Nat.le_refl 308)
        rw [if_neg none, quotient, Option.bind_some]
        exact ih (k - 308) (by omega) y

theorem ofDecimal?_of_natCast (negative : Bool) (s : Nat) {e : Nat} (near : e ≤ 308) :
    ofDecimal? negative s e =
      (ofNat? s).bind fun x => ((tenPow? e).bind x.mul?).map (·.withSign negative) := by
  have up : ¬ (e : Int) < 0 := by omega
  unfold ofDecimal?
  simp only [if_neg up, Int.natAbs_natCast, if_pos near, Option.map_eq_bind]
  rfl

/-- A decimal below one that is read is read. -/
theorem exists_ofDecimal?_below {s more e f : Nat} (le : s ≤ more) (lower : e ≤ f)
    (near : f ≤ 308) {y : Binary64} (h : ofDecimal? false more f = some y) (negative : Bool) :
    ∃ x, ofDecimal? negative s e = some x := by
  rw [ofDecimal?_of_natCast _ _ near] at h
  obtain ⟨big, hbig, h⟩ := Option.bind_eq_some_iff.mp h
  obtain ⟨z, product, -⟩ := Option.map_eq_some_iff.mp h
  obtain ⟨top, htop, product⟩ := Option.bind_eq_some_iff.mp product
  obtain ⟨x, hx, xle⟩ := ofNat?_mono le hbig
  obtain ⟨ten, hten, tenle⟩ := ofNat?_mono (Nat.pow_le_pow_right (by decide) lower) htop
  have sign : (big.negative != top.negative) = (x.negative != ten.negative) := by
    rw [(of_ofUnits? hbig).1, (of_ofUnits? htop).1, (of_ofUnits? hx).1, (of_ofUnits? hten).1]
  rw [mul?, sign] at product
  obtain ⟨w, hw, -⟩ := ofUnits?_mono (Nat.mul_le_mul xle tenle) product
  refine ⟨w.withSign negative, ?_⟩
  have power : tenPow? e = some ten := hten
  have small : x.mul? ten = some w := hw
  rw [ofDecimal?_of_natCast _ _ (Nat.le_trans lower near), hx, Option.bind_some, power,
    Option.bind_some, small, Option.map_some]

/-- The decimal zero is read with every exponent, also where the power of ten is not a double. -/
theorem exists_ofDecimal?_zero (negative : Bool) {e : Nat} (far : 308 < e) :
    ∃ x, ofDecimal? negative 0 e = some x := by
  have zero : ofNat? 0 = some zero := by decide +kernel
  have up : ¬ (e : Int) < 0 := by omega
  refine ⟨Binary64.zero.withSign negative, ?_⟩
  unfold ofDecimal?
  simp only [zero, if_neg up, Int.natAbs_natCast, if_neg (Nat.not_le_of_lt far), if_true,
    Option.bind_some, Option.bind_eq_bind]
  rfl

/-- A decimal whose exponent is not positive is read whenever its significand fits 64 bits. -/
theorem exists_ofDecimal?_of_nonpos (negative : Bool) {s : Nat} (fits : s ≤ 0xFFFFFFFFFFFFFFFF)
    {e : Int} (le : e ≤ 0) : ∃ x, ofDecimal? negative s e = some x := by
  by_cases down : e < 0
  · have greatest : (ofNat? 0xFFFFFFFFFFFFFFFF).isSome := by decide +kernel
    obtain ⟨top, h⟩ := Option.isSome_iff_exists.mp greatest
    obtain ⟨x, hx, -⟩ := ofNat?_mono fits h
    obtain ⟨y, hy⟩ := exists_shrink? x e.natAbs
    refine ⟨y.withSign negative, ?_⟩
    unfold ofDecimal?
    simp only [hx, if_pos down, hy, Option.bind_some, Option.bind_eq_bind]
    rfl
  · obtain rfl : e = 0 := by omega
    have greatest : (ofDecimal? false 0xFFFFFFFFFFFFFFFF (0 : Nat)).isSome := by decide +kernel
    obtain ⟨top, h⟩ := Option.isSome_iff_exists.mp greatest
    exact exists_ofDecimal?_below fits (Nat.le_refl 0) (by decide) h negative

end Binary64

end CommandDeck
