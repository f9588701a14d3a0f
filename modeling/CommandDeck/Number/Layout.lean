import CommandDeck.Number.Shortest

/-!
# Decimal text

The text of a double: its shortest digits, a point with a digit on each side, and an exponent where
the layout asks for one.
-/

namespace CommandDeck

/-- The exponents of the first digit that are written without an exponent part. -/
structure NumberLayout where
  leastPlain : Option Int
  greatestPlain : Option Int

namespace NumberLayout

/-- Numbers of a document: plain from `1e-5` up to below `1e16`. -/
def document : NumberLayout := ⟨some (-5), some 15⟩

/-- Numbers named in a message of the settings: always plain. -/
def plain : NumberLayout := ⟨none, none⟩

def isPlain (l : NumberLayout) (first : Int) : Bool :=
  l.leastPlain.all (· ≤ first) && l.greatestPlain.all (first ≤ ·)

def digits (n : Nat) : List Char := Nat.toDigits 10 n

/-- An integer with a minus sign where it is negative. -/
def integer (i : Int) : List Char := if i < 0 then '-' :: digits i.natAbs else digits i.natAbs

/-- `ds` with the point after `before` digits, and zeros where digits are missing. -/
def pointed (ds : List Char) (before : Int) : List Char :=
  if before ≤ 0 then '0' :: '.' :: (List.replicate before.natAbs '0' ++ ds)
  else if before.natAbs < ds.length then
    ds.take before.natAbs ++ '.' :: ds.drop before.natAbs
  else ds ++ List.replicate (before.natAbs - ds.length) '0' ++ ['.', '0']

/-- One digit, the others after a point, and the exponent with its sign. -/
def scientific (ds : List Char) (first : Int) : List Char :=
  let mantissa := match ds with
    | [] => []
    | [d] => [d]
    | d :: more => d :: '.' :: more
  mantissa ++ 'e' :: (if first < 0 then '-' else '+') :: digits first.natAbs

def magnitude (l : NumberLayout) (x : Binary64) : List Char :=
  let d := x.shortest
  let ds := digits d.digits
  let first := if d.digits = 0 then 0 else (ds.length : Int) + d.exponent - 1
  if l.isPlain first then pointed ds (first + 1) else scientific ds first

/-- The text of a double, minus zero included. -/
def write (l : NumberLayout) (x : Binary64) : List Char :=
  if x.negative then '-' :: l.magnitude x else l.magnitude x

end NumberLayout

end CommandDeck
