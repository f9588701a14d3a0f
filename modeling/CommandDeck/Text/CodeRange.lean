/-!
# Ranges of code points

Tables of characters list the ranges of their code points, both ends included.
-/

namespace CommandDeck.Text

/-- A character whose code point is in one of the ranges. -/
def isWithin (ranges : List (Nat × Nat)) (c : Char) : Bool :=
  ranges.any fun range => range.1 ≤ c.toNat && c.toNat ≤ range.2

end CommandDeck.Text
