/-!
# Lines

The division of a sequence into the pieces that end with a mark. Put together again, the pieces are
the sequence.
-/

namespace CommandDeck.Text

variable {α : Type} [DecidableEq α]

/-- The pieces that end with the mark, and what is left after the last mark if there is anything. -/
def pieces (mark : α) : List α → List (List α)
  | [] => []
  | a :: rest =>
    if a = mark then [a] :: pieces mark rest
    else match pieces mark rest with
      | [] => [[a]]
      | piece :: more => (a :: piece) :: more

theorem flatten_pieces (mark : α) (s : List α) : (pieces mark s).flatten = s := by
  induction s with
  | nil => rfl
  | cons a rest ih =>
    simp only [pieces]
    split
    · simp [ih]
    · split
      · rename_i h
        rw [h] at ih
        simp_all
      · rename_i h
        rw [h] at ih
        simp_all

end CommandDeck.Text
