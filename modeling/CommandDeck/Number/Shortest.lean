import CommandDeck.Number.Binary64

/-!
# The shortest decimal that reads back

The reals that round to a double form an interval around it, which holds its ends exactly when the
significand is even. Of the decimals in that interval the one with the fewest digits is taken, and of
several with equally many digits the nearest to the double. On the grid of decimals with a given last
place only the two neighbours of the double have to be looked at: if any point of the grid lies in
the interval, so does one of those two.
-/

namespace CommandDeck

/-- The decimal `digits * 10 ^ exponent`. -/
structure Decimal where
  digits : Nat
  exponent : Int
  deriving DecidableEq, Repr

namespace Decimal

def trim : Nat → Decimal → Decimal
  | 0, d => d
  | fuel + 1, d =>
    if d.digits ≠ 0 ∧ d.digits % 10 = 0 then trim fuel ⟨d.digits / 10, d.exponent + 1⟩ else d

end Decimal

namespace Binary64

/-- The reals that round to a double, in quarters of a unit. -/
structure RoundingInterval where
  low : Nat
  high : Nat
  closed : Bool

/-- The gap below a power of two is half the gap above it. -/
def roundingInterval (x : Binary64) : RoundingInterval :=
  let gap := Nat.pow 2 x.exponent
  let below := if x.significand = 0x10000000000000 ∧ 0 < x.exponent then gap else 2 * gap
  ⟨4 * x.units - below, 4 * x.units + 2 * gap, x.significand % 2 == 0⟩

/-- The factor `10 ^ k` that an exponent `k` puts on the side of the numerator. -/
def upward (k : Int) : Nat := Nat.pow 10 k.toNat

/-- The factor `10 ^ -k` that a negative exponent `k` puts on the other side. -/
def downward (k : Int) : Nat := Nat.pow 10 (-k).toNat

/-- The units of `digits * 10 ^ k`, in quarters and multiplied by `downward k`. -/
def gridPoint (k : Int) (digits : Nat) : Nat := digits * (4 * unitsPerOne) * upward k

def onInterval (x : Binary64) (k : Int) (digits : Nat) : Bool :=
  let i := x.roundingInterval
  let point := gridPoint k digits
  if i.closed then i.low * downward k ≤ point && point ≤ i.high * downward k
  else i.low * downward k < point && point < i.high * downward k

/-- The nearer of the neighbours of `x` among the multiples of `10 ^ k` that round to `x`. -/
def onGrid? (x : Binary64) (k : Int) : Option Nat :=
  let value := 4 * x.units * downward k
  let step := 4 * unitsPerOne * upward k
  let below := value / step
  match x.onInterval k below, x.onInterval k (below + 1) with
  | true, true =>
    if 2 * (value % step) < step then some below
    else if step < 2 * (value % step) then some (below + 1)
    else if below % 2 = 0 then some below else some (below + 1)
  | true, false => some below
  | false, true => some (below + 1)
  | false, false => none

/-- The number of digits before the point: `10 ^ (n - 1) ≤ x < 10 ^ n`, negative for small `x`. It is
estimated from the place of the highest bit and put right by comparison. -/
def integerDigits (x : Binary64) : Int :=
  let estimate : Int := ((x.units.log2 : Int) - 1074) * 30103 / 100000 + 1
  let reaches (n : Int) : Bool := unitsPerOne * upward n ≤ x.units * downward n
  if reaches estimate then estimate + 1
  else if reaches (estimate - 1) then estimate
  else estimate - 1

/-- Tries ever finer grids, beginning with the one that leaves a single digit. -/
def finerGrids (x : Binary64) : Nat → Int → Option Decimal
  | 0, _ => none
  | tries + 1, k =>
    match x.onGrid? k with
    | some digits => some (Decimal.trim 18 ⟨digits, k⟩)
    | none => finerGrids x tries (k - 1)

/-- The shortest decimal that rounds to the magnitude of `x`; seventeen digits always suffice. -/
def shortest (x : Binary64) : Decimal :=
  if x.units = 0 then ⟨0, 0⟩
  else (x.finerGrids 18 (x.integerDigits - 1)).getD ⟨0, 0⟩

end Binary64

end CommandDeck
