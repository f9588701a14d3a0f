/-!
# Durations

Lengths of time, counted in nanoseconds.
-/

namespace CommandDeck

structure Duration where
  nanos : Nat
  deriving DecidableEq

namespace Duration

def ofMillis (n : Nat) : Duration := ⟨n * 1000000⟩

/-- The whole milliseconds in a duration. -/
def millis (d : Duration) : Nat := d.nanos / 1000000

/-- A numeral counts milliseconds. -/
instance (n : Nat) : OfNat Duration n := ⟨ofMillis n⟩

instance : Add Duration := ⟨fun d e => ⟨d.nanos + e.nanos⟩⟩

instance : Sub Duration := ⟨fun d e => ⟨d.nanos - e.nanos⟩⟩

end Duration

end CommandDeck
