import Mathlib.Data.List.TakeWhile
import CommandDeck.Proofs.Json.Fraction
import CommandDeck.Proofs.Json.StringBody

/-!
# The grammar of numbers

A number without its sign is digits, then a point and digits or nothing, then an exponent or nothing.
The reader and the one that passes over take exactly such a text where no number goes on after it:
what they accept is of the grammar, and what is of the grammar is passed over whatever its size. The
reader refuses a number that is out of range, and then it does so whatever follows.
-/

namespace CommandDeck.Json

open Text (isDigit)

/-- What may follow the letter of an exponent. -/
inductive ExponentText : List Char → Prop where
  | unsigned {ds : List Char} (digits : Digits ds) : ExponentText ds
  | signed {sign : Char} {ds : List Char} (known : sign = '+' ∨ sign = '-') (digits : Digits ds) :
      ExponentText (sign :: ds)

/-- What may follow the point. -/
inductive FractionText : List Char → Prop where
  | digits {ds : List Char} (digits : Digits ds) : FractionText ds
  | exponent {ds : List Char} {letter : Char} {power : List Char} (digits : Digits ds)
      (known : isExponentLetter letter = true) (exponent : ExponentText power) :
      FractionText (ds ++ letter :: power)

/-- A number without its sign. -/
inductive NumberText : List Char → Prop where
  | whole {ds : List Char} (digits : WholeDigits ds) : NumberText ds
  | fraction {ds tail : List Char} (digits : WholeDigits ds) (fraction : FractionText tail) :
      NumberText (ds ++ '.' :: tail)
  | exponent {ds : List Char} {letter : Char} {power : List Char} (digits : WholeDigits ds)
      (known : isExponentLetter letter = true) (exponent : ExponentText power) :
      NumberText (ds ++ letter :: power)

theorem Digits.take {ds rest : List Char} (h : Digits ds) (stops : Stops rest) :
    (ds ++ rest).takeWhile isDigit = ds := takeWhile_isDigit h.digits stops

theorem Digits.drop {ds rest : List Char} (h : Digits ds) (stops : Stops rest) :
    (ds ++ rest).dropWhile isDigit = rest := dropWhile_isDigit h.digits stops

/-- The digits at the head of a text, when there are any. -/
theorem digits_takeWhile {s : List Char} (first : (s.head?.any isDigit) = true) :
    Digits (s.takeWhile isDigit) where
  digits := fun _ mem => List.mem_takeWhile_imp mem
  ne_nil := by
    cases s with
    | nil => cases first
    | cons c s =>
      have digit : isDigit c = true := first
      simp [digit]

theorem stops_exponentLetter {letter : Char} (known : isExponentLetter letter = true)
    (rest : List Char) : Stops (letter :: rest) := by
  rw [stops_cons]
  simp only [isExponentLetter, Bool.or_eq_true, beq_iff_eq] at known
  rcases known with rfl | rfl <;> rfl

theorem settled_floatNumeral (negative : Bool) (significand : Nat) (exponent : Int) :
    Settled fun rest => floatNumeral negative significand exponent rest := by
  rw [floatNumeral_def]
  dsimp only
  cases Binary64.ofDecimal? negative significand exponent with
  | none => exact settled_error .numberOutOfRange
  | some x => exact settled_ok (Numeral.float x)

theorem floatNumeral_rest {negative : Bool} {significand : Nat} {exponent : Int} {rest : List Char}
    {r : Numeral × List Char} (h : floatNumeral negative significand exponent rest = .ok r) :
    r.2 = rest := by
  rw [floatNumeral_def] at h
  dsimp only at h
  cases value : Binary64.ofDecimal? negative significand exponent with
  | none =>
    rw [value] at h
    cases h
  | some x =>
    rw [value] at h
    cases h
    rfl

/-- The power of ten after the digits of an exponent. -/
def exponentOf (negative : Bool) (significand : Nat) (exponent : Int) (down : Bool)
    (ds rest : List Char) : Except ReadError (Numeral × List Char) :=
  match gatherExponent ds 0 with
  | some value =>
    floatNumeral negative significand (if down then exponent - value else exponent + value) rest
  | none =>
    if significand ≠ 0 ∧ down = false then .error .numberOutOfRange
    else .ok (.float (Binary64.zero.withSign negative), rest)

theorem settled_exponentOf (negative : Bool) (significand : Nat) (exponent : Int) (down : Bool)
    (ds : List Char) : Settled fun rest => exponentOf negative significand exponent down ds rest := by
  cases gathered : gatherExponent ds 0 with
  | some value =>
    simp only [exponentOf, gathered]
    exact settled_floatNumeral negative significand _
  | none =>
    simp only [exponentOf, gathered]
    split
    · exact settled_error .numberOutOfRange
    · exact settled_ok (Numeral.float _)

/-- Whether the exponent is subtracted, and its digits. -/
def exponentSign : List Char → Bool × List Char
  | '+' :: rest => (false, rest)
  | '-' :: rest => (true, rest)
  | s => (false, s)

/-- Reads the digits of an exponent. -/
def readExponentDigits (negative : Bool) (significand : Nat) (exponent : Int) (down : Bool) :
    List Char → Except ReadError (Numeral × List Char)
  | [] => .error (.unfinished .value)
  | c :: s =>
    if isDigit c then
      exponentOf negative significand exponent down ((c :: s).takeWhile isDigit)
        ((c :: s).dropWhile isDigit)
    else .error .invalidNumber

theorem readExponent_eq (negative : Bool) (significand : Nat) (exponent : Int) (s : List Char) :
    readExponent negative significand exponent s =
      readExponentDigits negative significand exponent (exponentSign s).1 (exponentSign s).2 := by
  match s with
  | [] => rfl
  | c :: s =>
    by_cases plus : c = '+'
    · subst plus
      cases s <;> rfl
    by_cases minus : c = '-'
    · subst minus
      cases s <;> rfl
    · have sign : exponentSign (c :: s) = (false, c :: s) := by simp [exponentSign, plus, minus]
      rw [sign, readExponentDigits, exponentOf]
      cases gathered : gatherExponent ((c :: s).takeWhile isDigit) 0 <;>
        simp [readExponent, plus, minus, gathered]

theorem skipExponent_eq (s : List Char) :
    skipExponent s =
      if (exponentSign s).2.head?.any isDigit then .ok ((exponentSign s).2.dropWhile isDigit)
      else .error .invalidNumber := by
  match s with
  | [] => rfl
  | c :: s =>
    by_cases plus : c = '+'
    · subst plus
      rfl
    by_cases minus : c = '-'
    · subst minus
      rfl
    · simp [skipExponent, exponentSign, plus, minus]

/-- An exponent is its sign, if there is one, and its digits. -/
theorem ExponentText.split {power : List Char} (h : ExponentText power) :
    ∃ down ds, Digits ds ∧ ∀ rest, exponentSign (power ++ rest) = (down, ds ++ rest) := by
  cases h with
  | unsigned digits =>
    obtain ⟨c, more, rfl, digit⟩ := digits.exists_cons
    refine ⟨false, _, digits, fun rest => ?_⟩
    have plus := ne_of_isDigit digit (d := '+') rfl
    have minus := ne_of_isDigit digit (d := '-') rfl
    simp [exponentSign, plus, minus]
  | @signed sign ds known digits =>
    rcases known with rfl | rfl
    · exact ⟨false, ds, digits, fun _ => rfl⟩
    · exact ⟨true, ds, digits, fun _ => rfl⟩

/-- A text that goes on with digits after its sign, if there is one, begins with an exponent. -/
theorem exponentText_of_sign {s : List Char}
    (first : ((exponentSign s).2.head?.any isDigit) = true) :
    ∃ power, ExponentText power ∧ s = power ++ (exponentSign s).2.dropWhile isDigit := by
  have digits := digits_takeWhile first
  have parts := (List.takeWhile_append_dropWhile (p := isDigit) (l := (exponentSign s).2)).symm
  generalize (exponentSign s).2.takeWhile isDigit = ds at digits parts
  generalize (exponentSign s).2.dropWhile isDigit = rest at parts
  unfold exponentSign at parts
  split at parts
  · exact ⟨'+' :: ds, .signed (.inl rfl) digits, by rw [List.cons_append, ← parts]⟩
  · exact ⟨'-' :: ds, .signed (.inr rfl) digits, by rw [List.cons_append, ← parts]⟩
  · exact ⟨ds, .unsigned digits, parts⟩

theorem Digits.head {ds : List Char} (h : Digits ds) (rest : List Char) :
    ((ds ++ rest).head?.any isDigit) = true := by
  obtain ⟨c, more, rfl, digit⟩ := h.exists_cons
  exact digit

theorem ExponentText.settled {power : List Char} (h : ExponentText power) (negative : Bool)
    (significand : Nat) (exponent : Int) :
    Settled fun rest => readExponent negative significand exponent (power ++ rest) := by
  obtain ⟨down, ds, digits, sign⟩ := h.split
  refine (settled_exponentOf negative significand exponent down ds).congr fun rest ends => ?_
  rw [readExponent_eq, sign rest]
  have taken := digits.take ends.stops
  have dropped := digits.drop ends.stops
  obtain ⟨c, more, rfl, digit⟩ := digits.exists_cons
  rw [List.cons_append] at taken dropped ⊢
  rw [readExponentDigits, if_pos digit, taken, dropped]

theorem ExponentText.skipped {power : List Char} (h : ExponentText power) {rest : List Char}
    (ends : Ends rest) : skipExponent (power ++ rest) = .ok rest := by
  obtain ⟨down, ds, digits, sign⟩ := h.split
  rw [skipExponent_eq, sign rest, if_pos (digits.head rest), digits.drop ends.stops]

theorem skipExponent_ok {s rest : List Char} (h : skipExponent s = .ok rest) :
    ∃ power, ExponentText power ∧ s = power ++ rest := by
  rw [skipExponent_eq] at h
  split at h <;> cases h
  rename_i first
  exact exponentText_of_sign first

theorem exponentOf_rest {negative : Bool} {significand : Nat} {exponent : Int} {down : Bool}
    {ds rest : List Char} {r : Numeral × List Char}
    (h : exponentOf negative significand exponent down ds rest = .ok r) : r.2 = rest := by
  cases gathered : gatherExponent ds 0 with
  | some value =>
    simp only [exponentOf, gathered] at h
    exact floatNumeral_rest h
  | none =>
    simp only [exponentOf, gathered] at h
    split at h <;> cases h
    rfl

/-- What is read is passed over. -/
theorem skipExponent_of_read {negative : Bool} {significand : Nat} {exponent : Int}
    {s : List Char} {r : Numeral × List Char}
    (h : readExponent negative significand exponent s = .ok r) : skipExponent s = .ok r.2 := by
  rw [readExponent_eq] at h
  rw [skipExponent_eq]
  generalize (exponentSign s).2 = digits at h ⊢
  cases digits with
  | nil => cases h
  | cons c more =>
    rw [readExponentDigits] at h
    split at h
    · rename_i digit
      rw [exponentOf_rest h]
      exact if_pos digit
    · cases h

theorem stops_dropWhile (s : List Char) : Stops (s.dropWhile isDigit) := by
  intro c head
  have first := List.head?_dropWhile_not isDigit s
  rw [Option.mem_def.mp head] at first
  simpa using first

theorem isExponentLetter_iff {c : Char} : isExponentLetter c = true ↔ c = 'e' ∨ c = 'E' := by
  simp [isExponentLetter]

theorem skipFraction_digits {ds rest : List Char} (digits : Digits ds) (stops : Stops rest) :
    skipFraction (ds ++ rest) =
      match rest with
      | [] => .ok []
      | c :: rest => if isExponentLetter c then skipExponent rest else .ok (c :: rest) := by
  rw [skipFraction, if_pos (digits.head rest), digits.drop stops]
  cases rest <;> rfl

theorem FractionText.settled {tail : List Char} (h : FractionText tail) (negative : Bool)
    (significand extra : Nat) :
    Settled fun rest => readFraction negative significand extra (tail ++ rest) := by
  cases h with
  | digits digits =>
    refine (settled_floatNumeral negative (gatherFraction tail significand 0).1
      ((extra : Int) - (gatherFraction tail significand 0).2)).congr fun rest ends => ?_
    rw [readFraction_digits negative significand extra digits.digits digits.ne_nil ends.stops,
      readAfterFraction_ends _ _ _ ends]
  | @exponent ds letter power digits known exponent =>
    have stops := fun rest => stops_exponentLetter known (power ++ rest)
    simp only [List.append_assoc, List.cons_append, readFraction_digits negative significand extra
      digits.digits digits.ne_nil (stops _), readAfterFraction, if_pos known]
    exact exponent.settled negative _ _

theorem FractionText.skipped {tail : List Char} (h : FractionText tail) {rest : List Char}
    (ends : Ends rest) : skipFraction (tail ++ rest) = .ok rest := by
  cases h with
  | digits digits =>
    rw [skipFraction_digits digits ends.stops]
    cases rest with
    | nil => rfl
    | cons c rest =>
      obtain ⟨-, -, lower, upper⟩ := ends_cons.mp ends
      exact if_neg (by simp [isExponentLetter, lower, upper])
  | @exponent ds letter power digits known exponent =>
    rw [List.append_assoc, List.cons_append,
      skipFraction_digits digits (stops_exponentLetter known _)]
    exact (if_pos known).trans (exponent.skipped ends)

theorem skipFraction_ok {s rest : List Char} (h : skipFraction s = .ok rest) :
    ∃ tail, FractionText tail ∧ s = tail ++ rest := by
  have parts := List.takeWhile_append_dropWhile (p := isDigit) (l := s)
  rw [skipFraction] at h
  split at h
  · rename_i first
    have digits := digits_takeWhile first
    split at h
    · rename_i nothing
      cases h
      rw [nothing] at parts
      exact ⟨_, .digits digits, parts.symm⟩
    · rename_i c after more
      rw [more] at parts
      split at h
      · rename_i known
        obtain ⟨power, exponent, rfl⟩ := skipExponent_ok h
        exact ⟨_, .exponent digits known exponent, by simpa using parts.symm⟩
      · cases h
        exact ⟨_, .digits digits, parts.symm⟩
  · cases h

theorem skipFraction_of_read {negative : Bool} {significand extra : Nat} {s : List Char}
    {r : Numeral × List Char} (h : readFraction negative significand extra s = .ok r) :
    skipFraction s = .ok r.2 := by
  cases first : s.head?.any isDigit with
  | false =>
    cases s with
    | nil => cases h
    | cons c s =>
      have other : ¬ isDigit c = true := by simpa using first
      simp only [readFraction, if_neg other] at h
      cases h
  | true =>
    have digits := digits_takeWhile first
    have stops := stops_dropWhile s
    have parts := List.takeWhile_append_dropWhile (p := isDigit) (l := s)
    generalize s.takeWhile isDigit = ds at digits parts
    generalize s.dropWhile isDigit = rest at stops parts
    subst parts
    rw [readFraction_digits negative significand extra digits.digits digits.ne_nil stops] at h
    rw [skipFraction_digits digits stops]
    cases rest with
    | nil => rw [floatNumeral_rest h]
    | cons c rest =>
      rw [readAfterFraction] at h
      dsimp only
      split at h
      · rename_i known
        rw [if_pos known]
        exact skipExponent_of_read h
      · rename_i other
        rw [if_neg other, floatNumeral_rest h]

/-- Passes over what follows the digits before the point. -/
def skipAfterWhole : List Char → Except ReadError (List Char)
  | '.' :: rest => skipFraction rest
  | 'e' :: rest => skipExponent rest
  | 'E' :: rest => skipExponent rest
  | rest => .ok rest

theorem skipAfterWhole_ends {rest : List Char} (ends : Ends rest) :
    skipAfterWhole rest = .ok rest := by
  unfold skipAfterWhole
  split
  · exact absurd rfl (ends_cons.mp ends).2.1
  · exact absurd rfl (ends_cons.mp ends).2.2.1
  · exact absurd rfl (ends_cons.mp ends).2.2.2
  · rfl

theorem skipNumeral_wholeDigits {ds rest : List Char} (whole : WholeDigits ds)
    (stops : Stops rest) : skipNumeral (ds ++ rest) = skipAfterWhole rest := by
  have dropped := dropWhile_isDigit whole.digits stops
  obtain ⟨c, more, rfl, first⟩ := whole.exists_cons
  rw [List.cons_append] at dropped ⊢
  simp only [skipNumeral, first, if_true, if_neg (whole.unpadded stops), dropped]
  rfl

theorem settled_whole (negative : Bool) (significand extra : Nat) :
    Settled fun rest =>
      if extra = 0 then .ok (wholeNumeral negative significand, rest)
      else floatNumeral negative significand extra rest := by
  by_cases complete : extra = 0
  · exact (settled_ok (wholeNumeral negative significand)).congr fun _ _ => if_pos complete
  · exact (settled_floatNumeral negative significand extra).congr fun _ _ => if_neg complete

theorem NumberText.settled {number : List Char} (h : NumberText number) (negative : Bool) :
    Settled fun rest => readNumeral negative (number ++ rest) := by
  cases h with
  | whole digits =>
    refine (settled_whole negative (gatherWhole number 0 0).1 (gatherWhole number 0 0).2).congr
      fun rest ends => ?_
    rw [readNumeral_wholeDigits negative digits ends.stops, readAfterWhole_ends _ _ _ ends]
  | @fraction ds tail digits fraction =>
    refine (fraction.settled negative (gatherWhole ds 0 0).1 (gatherWhole ds 0 0).2).congr
      fun rest _ => ?_
    rw [List.append_assoc, List.cons_append,
      readNumeral_wholeDigits negative digits (stops_cons.mpr rfl), readAfterWhole]
  | @exponent ds letter power digits known exponent =>
    refine (exponent.settled negative (gatherWhole ds 0 0).1 (gatherWhole ds 0 0).2).congr
      fun rest _ => ?_
    rw [List.append_assoc, List.cons_append,
      readNumeral_wholeDigits negative digits (stops_exponentLetter known _)]
    rcases isExponentLetter_iff.mp known with rfl | rfl <;> rw [readAfterWhole]

theorem NumberText.skipped {number : List Char} (h : NumberText number) {rest : List Char}
    (ends : Ends rest) : skipNumeral (number ++ rest) = .ok rest := by
  cases h with
  | whole digits => rw [skipNumeral_wholeDigits digits ends.stops, skipAfterWhole_ends ends]
  | fraction digits fraction =>
    rw [List.append_assoc, List.cons_append,
      skipNumeral_wholeDigits digits (stops_cons.mpr rfl), skipAfterWhole, fraction.skipped ends]
  | exponent digits known exponent =>
    rw [List.append_assoc, List.cons_append,
      skipNumeral_wholeDigits digits (stops_exponentLetter known _)]
    rcases isExponentLetter_iff.mp known with rfl | rfl
    · exact exponent.skipped ends
    · exact exponent.skipped ends

/-- A number begins with all the digits up to the first character that is none. -/
theorem exists_wholeDigits {c : Char} {s : List Char} (digit : isDigit c = true)
    (unpadded : ¬ (c = '0' ∧ (s.head?.any isDigit) = true)) :
    ∃ ds rest, WholeDigits ds ∧ Stops rest ∧ c :: s = ds ++ rest := by
  refine ⟨c :: s.takeWhile isDigit, s.dropWhile isDigit, ⟨⟨?_, List.cons_ne_nil _ _⟩, ?_⟩,
    stops_dropWhile s, ?_⟩
  · exact List.forall_mem_cons.mpr ⟨digit, fun _ mem => List.mem_takeWhile_imp mem⟩
  · rintro more same
    obtain ⟨rfl, rfl⟩ := List.cons.inj same
    cases s with
    | nil => rfl
    | cons d s =>
      have other : ¬ isDigit d = true := fun another => unpadded ⟨rfl, another⟩
      simp [other]
  · rw [List.cons_append, List.takeWhile_append_dropWhile]

theorem skipNumeral_ok {s rest : List Char} (h : skipNumeral s = .ok rest) :
    ∃ number, NumberText number ∧ s = number ++ rest := by
  cases s with
  | nil => cases h
  | cons c s =>
    by_cases digit : isDigit c = true
    · by_cases padded : c = '0' ∧ (s.head?.any isDigit) = true
      · simp only [skipNumeral, if_pos digit, if_pos padded] at h
        cases h
      · obtain ⟨ds, after, digits, stops, parts⟩ := exists_wholeDigits digit padded
        rw [parts] at h ⊢
        rw [skipNumeral_wholeDigits digits stops] at h
        unfold skipAfterWhole at h
        split at h
        · obtain ⟨tail, fraction, rfl⟩ := skipFraction_ok h
          exact ⟨_, .fraction digits fraction, by simp⟩
        · obtain ⟨power, exponent, rfl⟩ := skipExponent_ok h
          exact ⟨_, .exponent digits (isExponentLetter_iff.mpr (.inl rfl)) exponent, by simp⟩
        · obtain ⟨power, exponent, rfl⟩ := skipExponent_ok h
          exact ⟨_, .exponent digits (isExponentLetter_iff.mpr (.inr rfl)) exponent, by simp⟩
        · cases h
          exact ⟨ds, .whole digits, rfl⟩
    · simp only [skipNumeral, if_neg digit] at h
      cases h

theorem skipAfterWhole_of_read {negative : Bool} {significand extra : Nat} {s : List Char}
    {r : Numeral × List Char} (h : readAfterWhole negative significand extra s = .ok r) :
    skipAfterWhole s = .ok r.2 := by
  unfold readAfterWhole at h
  split at h
  · exact skipFraction_of_read h
  · exact skipExponent_of_read h
  · exact skipExponent_of_read h
  · rename_i point lower upper
    rw [skipAfterWhole.eq_4 s point lower upper]
    split at h
    · cases h
      rfl
    · rw [floatNumeral_rest h]

theorem skipNumeral_of_read {negative : Bool} {s : List Char} {r : Numeral × List Char}
    (h : readNumeral negative s = .ok r) : skipNumeral s = .ok r.2 := by
  cases s with
  | nil => cases h
  | cons c s =>
    by_cases digit : isDigit c = true
    · by_cases padded : c = '0' ∧ (s.head?.any isDigit) = true
      · simp only [readNumeral, if_pos digit, if_pos padded] at h
        cases h
      · obtain ⟨ds, after, digits, stops, parts⟩ := exists_wholeDigits digit padded
        rw [parts] at h ⊢
        rw [readNumeral_wholeDigits negative digits stops] at h
        rw [skipNumeral_wholeDigits digits stops]
        exact skipAfterWhole_of_read h
    · simp only [readNumeral, if_neg digit] at h
      cases h

end CommandDeck.Json
