import Mathlib.Tactic.Ring
import CommandDeck.Number.Shortest
import CommandDeck.Proofs.Number.Rounding

/-!
# The shortest decimal is read

The shortest decimal of a double has at most eighteen digits, as its search begins at the first digit,
and it lies in the interval of the double. Read again it need not give the same double, for reading
rounds twice, but it gives some double: only the decimals of the greatest double could be too great, and
these are looked at one by one.
-/

namespace CommandDeck

namespace Binary64

/-! ### Powers of ten on both sides -/

theorem downward_pos (k : Int) : 0 < downward k := Nat.pow_pos (by decide)

/-- A step of `j` places, whichever side the powers stand on. -/
theorem upward_add (k : Int) (j : Nat) :
    upward (k + j) * downward k = 10 ^ j * upward k * downward (k + j) := by
  unfold upward downward
  have places : (k + j).toNat + (-k).toNat = j + k.toNat + (-(k + j)).toNat := by omega
  calc 10 ^ (k + j).toNat * 10 ^ (-k).toNat = 10 ^ ((k + j).toNat + (-k).toNat) :=
        (Nat.pow_add 10 _ _).symm
    _ = 10 ^ (j + k.toNat + (-(k + j)).toNat) := by rw [places]
    _ = 10 ^ j * 10 ^ k.toNat * 10 ^ (-(k + j)).toNat := by rw [Nat.pow_add, Nat.pow_add]

/-! ### The number of digits before the point -/

/-- The estimate of the number of digits before the point, from the place of the highest bit. -/
def estimate (bits : Nat) : Int := ((bits : Int) - 1074) * 30103 / 100000 + 1

/-- The number is less than `10 ^ n`. -/
def Below (x : Binary64) (n : Int) : Prop := x.units * downward n < unitsPerOne * upward n

theorem estimate_bounds {bits : Nat} (lt : bits < bitLimit) :
    -400 < estimate bits ∧ estimate bits < 400 := by
  unfold bitLimit at lt
  unfold estimate
  omega

/-- A number of so many bits has at most one digit more than its estimate says. -/
theorem pow_le_estimate {bits : Nat} (lt : bits < bitLimit) :
    2 ^ (bits + 1) * downward (estimate bits + 1) ≤ unitsPerOne * upward (estimate bits + 1) := by
  have table : ((List.range bitLimit).all fun bits =>
      2 ^ (bits + 1) * downward (estimate bits + 1) ≤ unitsPerOne * upward (estimate bits + 1)) =
      true := by
    decide +kernel
  exact of_decide_eq_true (List.all_eq_true.mp table bits (List.mem_range.mpr lt))

theorem log2_units_lt (x : Binary64) : x.units.log2 < bitLimit := by
  by_cases none : x.units = 0
  · rw [none, Nat.log2_zero]
    decide
  · exact (Nat.log2_lt none).mpr x.units_lt_beyond

/-- The number of digits is one more than the estimate, or it is put right by a comparison. -/
theorem integerDigits_cases (x : Binary64) :
    let guess := estimate x.units.log2
    x.integerDigits = guess + 1 ∨ (x.integerDigits = guess ∧ x.Below guess) ∨
      (x.integerDigits = guess - 1 ∧ x.Below (guess - 1)) := by
  intro guess
  have parts : x.integerDigits =
      if decide (unitsPerOne * upward guess ≤ x.units * downward guess) then guess + 1
      else if decide (unitsPerOne * upward (guess - 1) ≤ x.units * downward (guess - 1)) then guess
      else guess - 1 := rfl
  rw [parts]
  split
  · exact Or.inl rfl
  · rename_i short
    split
    · exact Or.inr (Or.inl ⟨rfl, by simpa [Below] using short⟩)
    · rename_i shorter
      exact Or.inr (Or.inr ⟨rfl, by simpa [Below] using shorter⟩)

theorem below_integerDigits (x : Binary64) : x.Below x.integerDigits := by
  obtain same | ⟨same, below⟩ | ⟨same, below⟩ := x.integerDigits_cases
  · rw [same]
    calc x.units * downward (estimate x.units.log2 + 1)
        < 2 ^ (x.units.log2 + 1) * downward (estimate x.units.log2 + 1) :=
          Nat.mul_lt_mul_of_pos_right Nat.lt_log2_self (downward_pos _)
      _ ≤ unitsPerOne * upward (estimate x.units.log2 + 1) := pow_le_estimate x.log2_units_lt
  · rwa [same]
  · rwa [same]

theorem integerDigits_bounds (x : Binary64) :
    -402 < x.integerDigits ∧ x.integerDigits < 402 := by
  have bounds := estimate_bounds x.log2_units_lt
  obtain same | ⟨same, -⟩ | ⟨same, -⟩ := x.integerDigits_cases <;> omega

/-! ### Decimals on a grid -/

/-- What is found on a grid is in the interval, and not more than one point above the double. -/
theorem of_onGrid? {x : Binary64} {k : Int} {digits : Nat} (h : x.onGrid? k = some digits) :
    x.onInterval k digits = true ∧
      digits ≤ 4 * x.units * downward k / (4 * unitsPerOne * upward k) + 1 := by
  unfold onGrid? at h
  dsimp only at h
  generalize 4 * x.units * downward k / (4 * unitsPerOne * upward k) = below at h ⊢
  split at h
  · rename_i lower upper
    split at h
    · cases h
      exact ⟨lower, Nat.le_succ _⟩
    · split at h
      · cases h
        exact ⟨upper, Nat.le_refl _⟩
      · split at h
        · cases h
          exact ⟨lower, Nat.le_succ _⟩
        · cases h
          exact ⟨upper, Nat.le_refl _⟩
  · rename_i lower upper
    cases h
    exact ⟨lower, Nat.le_succ _⟩
  · rename_i lower upper
    cases h
    exact ⟨upper, Nat.le_refl _⟩
  · cases h

theorem Below.mono {x : Binary64} {n : Int} (below : x.Below n) (j : Nat) : x.Below (n + j) := by
  unfold Below at below ⊢
  generalize unitsPerOne = u at below ⊢
  have step := upward_add n j
  have wide : x.units * downward (n + j) * downward n < u * upward (n + j) * downward n := by
    calc x.units * downward (n + j) * downward n = downward (n + j) * (x.units * downward n) := by
          ring
      _ < downward (n + j) * (u * upward n) :=
          Nat.mul_lt_mul_of_pos_left below (downward_pos _)
      _ ≤ downward (n + j) * (u * (10 ^ j * upward n)) := by
          have more : upward n ≤ 10 ^ j * upward n :=
            Nat.le_mul_of_pos_left _ (Nat.pow_pos (by decide))
          exact Nat.mul_le_mul_left _ (Nat.mul_le_mul_left _ more)
      _ = u * (10 ^ j * upward n * downward (n + j)) := by ring
      _ = u * upward (n + j) * downward n := by
          rw [← step]
          ring
  exact Nat.lt_of_mul_lt_mul_right wide

/-- Above the eighteenth digit before its last place, a grid has that many points below a double. -/
theorem grid_digits_le {x : Binary64} {k : Int} (below : x.Below (k + 18)) {digits : Nat}
    (h : x.onGrid? k = some digits) : digits ≤ 10 ^ 18 := by
  have bound := (of_onGrid? h).2
  unfold Below at below
  generalize unitsPerOne = u at below bound
  have step : upward (k + 18) * downward k = 10 ^ 18 * upward k * downward (k + 18) :=
    upward_add k 18
  have wide : 4 * x.units * downward k * downward (k + 18) <
      4 * u * upward k * 10 ^ 18 * downward (k + 18) := by
    calc 4 * x.units * downward k * downward (k + 18)
        = 4 * downward k * (x.units * downward (k + 18)) := by ring
      _ < 4 * downward k * (u * upward (k + 18)) :=
          Nat.mul_lt_mul_of_pos_left below (Nat.mul_pos (by decide) (downward_pos k))
      _ = 4 * u * (upward (k + 18) * downward k) := by ring
      _ = 4 * u * upward k * 10 ^ 18 * downward (k + 18) := by
          rw [step]
          ring
  have quotient : 4 * x.units * downward k / (4 * u * upward k) < 10 ^ 18 :=
    Nat.div_lt_of_lt_mul (Nat.lt_of_mul_lt_mul_right wide)
  omega

theorem of_finerGrids {x : Binary64} {tries : Nat} {k : Int} {d : Decimal}
    (h : x.finerGrids tries k = some d) :
    ∃ j < tries, ∃ digits, x.onGrid? (k - (j : Nat)) = some digits ∧
      d = Decimal.trim 18 ⟨digits, k - (j : Nat)⟩ := by
  induction tries generalizing k with
  | zero => cases h
  | succ tries ih =>
    rw [finerGrids] at h
    split at h
    · rename_i digits found
      cases h
      refine ⟨0, Nat.succ_pos _, digits, ?_, ?_⟩
      · rwa [Int.natCast_zero, Int.sub_zero]
      · rw [Int.natCast_zero, Int.sub_zero]
    · obtain ⟨j, lt, digits, found, trimmed⟩ := ih h
      have place : k - ((j + 1 : Nat) : Int) = k - 1 - (j : Nat) := by omega
      exact ⟨j + 1, by omega, digits, by rwa [place], by rwa [place]⟩

end Binary64

namespace Decimal

open Binary64

/-- The decimal is at most so many quarters of a unit. -/
def AtMost (top : Nat) (d : Decimal) : Prop :=
  gridPoint d.exponent d.digits ≤ top * downward d.exponent

/-- A zero at the end of the digits is one more in the exponent. -/
theorem AtMost.shift {top digits : Nat} {k : Int} (h : AtMost top ⟨digits * 10, k⟩) :
    AtMost top ⟨digits, k + 1⟩ := by
  unfold AtMost gridPoint at h ⊢
  dsimp only at h ⊢
  generalize unitsPerOne = u at h ⊢
  have step : upward (k + 1) * downward k = 10 ^ 1 * upward k * downward (k + 1) := upward_add k 1
  have wide : digits * (4 * u) * upward (k + 1) * downward k ≤
      top * downward (k + 1) * downward k := by
    calc digits * (4 * u) * upward (k + 1) * downward k
        = digits * (4 * u) * (upward (k + 1) * downward k) := Nat.mul_assoc _ _ _
      _ = downward (k + 1) * (digits * 10 * (4 * u) * upward k) := by
          rw [step]
          ring
      _ ≤ downward (k + 1) * (top * downward k) := Nat.mul_le_mul_left _ h
      _ = top * downward (k + 1) * downward k := by ring
  exact Nat.le_of_mul_le_mul_right wide (downward_pos k)

/-- What is left of a decimal without the zeros at the end of its digits. -/
structure Trimmed (fuel : Nat) (d e : Decimal) : Prop where
  digits : e.digits ≤ d.digits
  least : d.exponent ≤ e.exponent
  greatest : e.exponent ≤ d.exponent + fuel
  atMost : ∀ top, AtMost top d → AtMost top e

theorem trim_trimmed (fuel : Nat) (d : Decimal) : Trimmed fuel d (trim fuel d) := by
  induction fuel generalizing d with
  | zero => exact ⟨Nat.le_refl _, Int.le_refl _, by simp [trim], fun _ h => h⟩
  | succ fuel ih =>
    rw [trim]
    split
    · rename_i zeros
      have rest := ih ⟨d.digits / 10, d.exponent + 1⟩
      refine ⟨?_, ?_, ?_, ?_⟩
      · exact Nat.le_trans rest.digits (Nat.div_le_self _ _)
      · have := rest.least
        dsimp only at this
        omega
      · have := rest.greatest
        dsimp only at this
        omega
      · intro top h
        have whole : d.digits / 10 * 10 = d.digits :=
          Nat.div_mul_cancel (Nat.dvd_of_mod_eq_zero zeros.2)
        exact rest.atMost top (AtMost.shift (by rw [whole]; exact h))
    · exact ⟨Nat.le_refl _, Int.le_refl _, by omega, fun _ h => h⟩

theorem zero_atMost (top : Nat) : AtMost top ⟨0, 0⟩ := by
  unfold AtMost gridPoint
  dsimp only
  rw [Nat.zero_mul, Nat.zero_mul]
  exact Nat.zero_le _

end Decimal

namespace Binary64

open Decimal

/-- The shortest decimal is short, has a small exponent, and is not above the interval. -/
structure Short (x : Binary64) (d : Decimal) : Prop where
  digits : d.digits ≤ 10 ^ 18
  exponent : d.exponent.natAbs ≤ 500
  atMost : AtMost x.roundingInterval.high d

theorem zero_short (x : Binary64) : x.Short ⟨0, 0⟩ :=
  ⟨Nat.zero_le _, Nat.zero_le _, zero_atMost _⟩

theorem atMost_of_onInterval {x : Binary64} {k : Int} {digits : Nat}
    (h : x.onInterval k digits = true) : AtMost x.roundingInterval.high ⟨digits, k⟩ := by
  unfold onInterval at h
  dsimp only at h
  split at h
  · rw [Bool.and_eq_true, decide_eq_true_eq, decide_eq_true_eq] at h
    exact h.2
  · rw [Bool.and_eq_true, decide_eq_true_eq, decide_eq_true_eq] at h
    exact Nat.le_of_lt h.2

theorem shortest_short (x : Binary64) : x.Short x.shortest := by
  unfold shortest
  split
  · exact x.zero_short
  · cases found : x.finerGrids 18 (x.integerDigits - 1) with
    | none => exact x.zero_short
    | some d =>
      obtain ⟨j, lt, digits, grid, rfl⟩ := of_finerGrids found
      have bounds := x.integerDigits_bounds
      have trimmed := trim_trimmed 18 ⟨digits, x.integerDigits - 1 - (j : Nat)⟩
      have below : x.Below (x.integerDigits - 1 - (j : Nat) + 18) := by
        have place : x.integerDigits - 1 - (j : Nat) + 18 = x.integerDigits + (17 - j : Nat) := by
          omega
        rw [place]
        exact x.below_integerDigits.mono (17 - j)
      have least := trimmed.least
      have greatest := trimmed.greatest
      dsimp only at least greatest
      refine ⟨Nat.le_trans trimmed.digits (grid_digits_le below grid), ?_, ?_⟩
      · rw [Option.getD_some]
        omega
      · exact trimmed.atMost _ (atMost_of_onInterval (of_onGrid? grid).1)

/-! ### Reading it again -/

/-- The greatest double. -/
def greatest : Binary64 :=
  ⟨false, 0x1FFFFFFFFFFFFF, 2045, by decide, Or.inr (by decide), by decide⟩

/-- Halfway from the double before the greatest to the greatest, where the gap is `2 ^ (place + 1)`. -/
def halfway (place : Nat) : Nat := 0x3FFFFFFFFFFFFD * 2 ^ place

theorem high_le_halfway (place : Nat) {significand exponent : Nat}
    (bits : significand ≤ 0x1FFFFFFFFFFFFF) (le : exponent ≤ place + 1)
    (other : significand ≠ 0x1FFFFFFFFFFFFF ∨ exponent ≠ place + 1) :
    (4 * significand + 2) * 2 ^ exponent ≤ 4 * halfway place := by
  unfold halfway
  rw [← Nat.mul_assoc]
  by_cases last : exponent = place + 1
  · have full : (4 * significand + 2) * 2 ≤ 4 * 0x3FFFFFFFFFFFFD := by omega
    rw [last, Nat.pow_succ, Nat.mul_comm (2 ^ place), ← Nat.mul_assoc]
    exact Nat.mul_le_mul_right _ full
  · have lower : 2 ^ exponent ≤ 2 ^ place := Nat.pow_le_pow_right (by decide) (by omega)
    exact Nat.mul_le_mul (by omega) lower

/-- The units in the middle between the greatest double and the one before it. -/
def readLimit : Nat := halfway 2044

/-- Every double but the greatest ends its interval at this limit or before it. -/
theorem high_le_of_ne {x : Binary64}
    (other : x.significand ≠ 0x1FFFFFFFFFFFFF ∨ x.exponent ≠ 2045) :
    x.roundingInterval.high ≤ 4 * readLimit := by
  have high : x.roundingInterval.high = (4 * x.significand + 2) * 2 ^ x.exponent := by
    unfold roundingInterval units
    dsimp only
    rw [Nat.add_mul, Nat.mul_assoc]
    rfl
  rw [high, readLimit]
  exact high_le_halfway 2044 (Nat.le_of_lt_succ x.significand_lt) x.exponent_le other

theorem readLimit_lt {e : Nat} (far : 308 < e) : readLimit < 10 ^ e * unitsPerOne := by
  obtain ⟨n, least, lt⟩ : ∃ n ≤ 309, readLimit < 10 ^ n * unitsPerOne :=
    ⟨309, Nat.le_refl _, by decide +kernel⟩
  have power : 10 ^ n ≤ 10 ^ e := Nat.pow_le_pow_right (by decide) (by omega)
  exact Nat.lt_of_lt_of_le lt (Nat.mul_le_mul_right _ power)

/-- The greatest significand of eighteen digits with which an exponent stays below the limit. -/
def greatestDigits (e : Nat) : Nat := min (10 ^ 18) (readLimit / (10 ^ e * unitsPerOne))

theorem exists_ofDecimal?_greatest {e : Nat} (near : e ≤ 308) :
    ∃ y, ofDecimal? false (greatestDigits e) e = some y := by
  by_cases small : e ≤ 290
  · have top : (ofDecimal? false (10 ^ 18) (290 : Nat)).isSome := by decide +kernel
    obtain ⟨y, h⟩ := Option.isSome_iff_exists.mp top
    exact exists_ofDecimal?_below (Nat.min_le_left _ _) small (by decide) h false
  · have table : ((List.range' 291 18).all fun e =>
        (ofDecimal? false (greatestDigits e) (e : Nat)).isSome) = true := by
      decide +kernel
    have mem : e ∈ List.range' 291 18 := List.mem_range'_1.mpr (by omega)
    exact Option.isSome_iff_exists.mp (List.all_eq_true.mp table e mem)

theorem exists_ofDecimal?_of_le {digits e : Nat} (short : digits ≤ 10 ^ 18)
    (bound : digits * (10 ^ e * unitsPerOne) ≤ readLimit) (negative : Bool) :
    ∃ y, ofDecimal? negative digits e = some y := by
  have positive : 0 < 10 ^ e * unitsPerOne := Nat.mul_pos (Nat.pow_pos (by decide)) unitsPerOne_pos
  by_cases near : e ≤ 308
  · obtain ⟨top, h⟩ := exists_ofDecimal?_greatest near
    have le : digits ≤ greatestDigits e :=
      Nat.le_min.mpr ⟨short, (Nat.le_div_iff_mul_le positive).mpr bound⟩
    exact exists_ofDecimal?_below le (Nat.le_refl e) near h negative
  · have none : digits = 0 := by
      by_contra some
      have least := Nat.le_mul_of_pos_left (10 ^ e * unitsPerOne) (Nat.pos_of_ne_zero some)
      exact absurd (Nat.le_trans least bound) (Nat.not_le_of_lt (readLimit_lt (by omega)))
    rw [none]
    exact exists_ofDecimal?_zero negative (by omega)

theorem greatest_shortest (negative : Bool) :
    (greatest.withSign negative).shortest = ⟨17976931348623157, 292⟩ := by
  cases negative <;> decide +kernel

theorem eq_greatest {x : Binary64} (bits : x.significand = 0x1FFFFFFFFFFFFF)
    (place : x.exponent = 2045) : x = greatest.withSign x.negative := by
  obtain ⟨negative, significand, exponent, _, _, _⟩ := x
  subst bits place
  rfl

/-- The shortest decimal of a double is always read, with either sign. -/
theorem exists_ofDecimal?_shortest (x : Binary64) (negative : Bool) :
    ∃ y, ofDecimal? negative x.shortest.digits x.shortest.exponent = some y := by
  have short := x.shortest_short
  by_cases last : x.significand = 0x1FFFFFFFFFFFFF ∧ x.exponent = 2045
  · have top : (ofDecimal? false 17976931348623157 (292 : Nat)).isSome := by decide +kernel
    obtain ⟨y, h⟩ := Option.isSome_iff_exists.mp top
    rw [eq_greatest last.1 last.2, greatest_shortest]
    exact exists_ofDecimal?_below (Nat.le_refl _) (Nat.le_refl _) (by decide) h negative
  by_cases fraction : x.shortest.exponent ≤ 0
  · exact exists_ofDecimal?_of_nonpos negative (Nat.le_trans short.digits (by decide)) fraction
  · obtain ⟨e, exponent⟩ : ∃ e : Nat, x.shortest.exponent = e :=
      ⟨_, (Int.toNat_of_nonneg (by omega)).symm⟩
    have high := high_le_of_ne (Decidable.not_and_iff_or_not.mp last)
    have atMost := short.atMost
    unfold AtMost gridPoint upward downward at atMost
    rw [exponent] at atMost ⊢
    rw [Int.toNat_neg_natCast, Int.toNat_natCast] at atMost
    apply exists_ofDecimal?_of_le short.digits
    generalize unitsPerOne = u at atMost ⊢
    have bound : 4 * (x.shortest.digits * (10 ^ e * u)) ≤ 4 * readLimit := by
      calc 4 * (x.shortest.digits * (10 ^ e * u))
          = x.shortest.digits * (4 * u) * 10 ^ e := by ring
        _ ≤ x.roundingInterval.high * 10 ^ 0 := atMost
        _ = x.roundingInterval.high := Nat.mul_one _
        _ ≤ 4 * readLimit := high
    exact Nat.le_of_mul_le_mul_left bound (by decide)

end Binary64

end CommandDeck
