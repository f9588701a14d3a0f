/-!
# Finite doubles as whole numbers of units

A finite double of 64 bits is a sign and a magnitude `significand * 2 ^ exponent`, counted in units
of `2 ^ -1074`, the smallest positive double. Both parts are natural numbers, so that every operation
below is exact arithmetic followed by one rounding to the nearest double, ties to the even
significand. The double one is `2 ^ 1074` units. Infinities and the undefined value are not numbers
of this type: an operation that leaves the finite range answers `none`.
-/

namespace CommandDeck

/-- A finite double: `significand * 2 ^ exponent` units, with a sign that zero has as well. The
significand has at most 53 bits, and it has exactly 53 unless the exponent is the least one. -/
structure Binary64 where
  negative : Bool
  significand : Nat
  exponent : Nat
  significand_lt : significand < 0x20000000000000
  normal : exponent = 0 ∨ 0x10000000000000 ≤ significand
  exponent_le : exponent ≤ 2045
  deriving DecidableEq

namespace Binary64

/-- The units in the double one. -/
def unitsPerOne : Nat := Nat.pow 2 1074

/-- The magnitude in units of `2 ^ -1074`. -/
def units (x : Binary64) : Nat := x.significand * Nat.pow 2 x.exponent

def zero : Binary64 := ⟨false, 0, 0, by decide, Or.inl rfl, by decide⟩

instance : Inhabited Binary64 := ⟨zero⟩

def withSign (x : Binary64) (negative : Bool) : Binary64 := { x with negative := negative }

/-- The whole number nearest to `num / den`; of two equally near the even one. -/
def nearest (num den : Nat) : Nat :=
  let quotient := num / den
  let twice := 2 * (num % den)
  if twice < den then quotient
  else if den < twice then quotient + 1
  else if quotient % 2 = 0 then quotient
  else quotient + 1

/-- The double nearest to `num / den` units, or `none` if that is beyond the greatest double. -/
def ofUnits? (negative : Bool) (num den : Nat) : Option Binary64 :=
  let place := (num / den).log2 - 52
  let rounded := nearest num (den * Nat.pow 2 place)
  let significand := if rounded = 0x20000000000000 then 0x10000000000000 else rounded
  let exponent := if rounded = 0x20000000000000 then place + 1 else place
  if h : significand < 0x20000000000000 ∧ (exponent = 0 ∨ 0x10000000000000 ≤ significand) ∧
      exponent ≤ 2045 then
    some ⟨negative, significand, exponent, h.1, h.2.1, h.2.2⟩
  else none

def ofNat? (n : Nat) : Option Binary64 := ofUnits? false (n * unitsPerOne) 1

def ofInt? (i : Int) : Option Binary64 := ofUnits? (i < 0) (i.natAbs * unitsPerOne) 1

/-- The rounded product. -/
def mul? (x y : Binary64) : Option Binary64 :=
  ofUnits? (x.negative != y.negative) (x.units * y.units) unitsPerOne

/-- The rounded quotient of `x` by a `y` other than zero. -/
def div? (x y : Binary64) : Option Binary64 :=
  ofUnits? (x.negative != y.negative) (x.units * unitsPerOne) y.units

def tenPow? (k : Nat) : Option Binary64 := ofNat? (Nat.pow 10 k)

/-- Division by `10 ^ k`: at once up to `k = 308`, and in rounded steps of `10 ^ 308` beyond. -/
def shrink? (x : Binary64) (k : Nat) : Option Binary64 :=
  if k ≤ 308 then (tenPow? k).bind x.div?
  else if x.units = 0 then some x
  else ((tenPow? 308).bind x.div?).bind fun y => shrink? y (k - 308)
termination_by k

/-- The double that the decimal `significand * 10 ^ exponent` is read as: the significand is rounded
to a double, which is then multiplied or divided by a power of ten and rounded again. The result is
not always the double nearest to the decimal. -/
def ofDecimal? (negative : Bool) (significand : Nat) (exponent : Int) : Option Binary64 := do
  let x ← ofNat? significand
  let y ←
    if exponent < 0 then x.shrink? exponent.natAbs
    else if exponent.natAbs ≤ 308 then (tenPow? exponent.natAbs).bind x.mul?
    else if significand = 0 then some x
    else none
  return y.withSign negative

/-- The double nearest to the decimal `significand * 10 ^ exponent`. -/
def ofDecimalNearest? (negative : Bool) (significand : Nat) (exponent : Int) : Option Binary64 :=
  if 0 ≤ exponent then
    ofUnits? negative (significand * Nat.pow 10 exponent.natAbs * unitsPerOne) 1
  else ofUnits? negative (significand * unitsPerOne) (Nat.pow 10 exponent.natAbs)

/-- The integer that stands for the number when the part after the point is below `2 ^ -52` and the
magnitude is at most `2 ^ 53`: the number with that part dropped. -/
def whole? (x : Binary64) : Option Int :=
  if x.units % unitsPerOne < Nat.pow 2 1022 ∧ x.units ≤ 0x20000000000000 * unitsPerOne then
    let size : Int := x.units / unitsPerOne
    some (if x.negative then -size else size)
  else none

end Binary64

end CommandDeck
