import CommandDeck.Proofs.Json.Reading
import CommandDeck.Proofs.Number.Shortest

/-!
# Doubles read back

The text of a double is always read as a double. With a point and no exponent it is read whatever its
digits are, for only few digits stand before the point. With an exponent all its digits are gathered,
and the decimal that is read is the shortest one of the double that was written.
-/

namespace CommandDeck

namespace NumberLayout

theorem length_digits_le {n k : Nat} (positive : 0 < k) (lt : n < 10 ^ k) :
    (digits n).length ≤ k :=
  (Nat.length_toDigits_le_iff (by decide) positive).mpr lt

theorem eq_zero_of_digits {n : Nat} {more : List Char} (h : digits n = '0' :: more) : n = 0 := by
  have value := ofDigitChars_digits n
  rw [h, digits_head h] at value
  exact value.symm

end NumberLayout

namespace Json

open Text (isDigit digitValue)

theorem digitValue_le {d : Char} (digit : isDigit d = true) : digitValue d ≤ 9 := by
  unfold isDigit at digit
  rw [Bool.and_eq_true, decide_eq_true_eq, decide_eq_true_eq] at digit
  have top : d.toNat ≤ 57 := digit.2
  unfold digitValue
  omega

theorem ofDigitChars_lt {ds : List Char} (digits : ∀ c ∈ ds, isDigit c = true) (n : Nat) :
    Nat.ofDigitChars 10 ds n < (n + 1) * 10 ^ ds.length := by
  induction ds generalizing n with
  | nil => simp
  | cons d ds ih =>
    have value := digitValue_le (digits d List.mem_cons_self)
    rw [ofDigitChars_cons]
    calc Nat.ofDigitChars 10 ds (n * 10 + digitValue d)
        < (n * 10 + digitValue d + 1) * 10 ^ ds.length :=
          ih (fun c mem => digits c (List.mem_cons_of_mem _ mem)) _
      _ ≤ (n + 1) * 10 * 10 ^ ds.length := Nat.mul_le_mul_right _ (by omega)
      _ = (n + 1) * 10 ^ (d :: ds).length := by
          rw [List.length_cons, Nat.pow_succ', Nat.mul_assoc]

/-! ### After the point -/

theorem gatherFraction_le (ds : List Char) {n : Nat} (fits : n ≤ significandLimit) (used : Nat) :
    (gatherFraction ds n used).1 ≤ significandLimit := by
  induction ds generalizing n used with
  | nil => exact fits
  | cons d ds ih =>
    rw [gatherFraction]
    split
    · exact fits
    · exact ih (by omega) _

/-- As long as the whole fits, no digit is dropped. -/
theorem gatherFraction_eq {ds : List Char} {n : Nat} (used : Nat)
    (fits : Nat.ofDigitChars 10 ds n ≤ significandLimit) :
    gatherFraction ds n used = (Nat.ofDigitChars 10 ds n, used + ds.length) := by
  induction ds generalizing n used with
  | nil => rfl
  | cons d ds ih =>
    rw [ofDigitChars_cons] at fits ⊢
    have bound := Nat.le_trans (le_ofDigitChars ds _) fits
    rw [gatherFraction, if_neg (by omega), ih _ fits, List.length_cons]
    congr 1
    omega

/-- Reads what follows the digits after the point. -/
def readAfterFraction (negative : Bool) (significand : Nat) (exponent : Int) :
    List Char → Except ReadError (Numeral × List Char)
  | [] => floatNumeral negative significand exponent []
  | c :: rest =>
    if isExponentLetter c then readExponent negative significand exponent rest
    else floatNumeral negative significand exponent (c :: rest)

theorem readAfterFraction_ends (negative : Bool) (significand : Nat) (exponent : Int)
    {rest : List Char} (ends : Ends rest) :
    readAfterFraction negative significand exponent rest =
      floatNumeral negative significand exponent rest := by
  cases rest with
  | nil => rfl
  | cons c rest =>
    obtain ⟨-, -, lower, upper⟩ := ends_cons.mp ends
    exact if_neg (by simp [isExponentLetter, lower, upper])

theorem readFraction_digits (negative : Bool) (significand extra : Nat) {ds : List Char}
    (digits : ∀ c ∈ ds, isDigit c = true) (ne_nil : ds ≠ []) {rest : List Char}
    (stops : Stops rest) :
    readFraction negative significand extra (ds ++ rest) =
      readAfterFraction negative (gatherFraction ds significand 0).1
        ((extra : Int) - (gatherFraction ds significand 0).2) rest := by
  obtain ⟨c, more, rfl⟩ := List.exists_cons_of_ne_nil ne_nil
  have first : isDigit c = true := digits c List.mem_cons_self
  have taken := takeWhile_isDigit digits stops
  have dropped := dropWhile_isDigit digits stops
  rw [List.cons_append] at taken dropped ⊢
  simp only [readFraction, first, if_true, taken, dropped]
  cases rest <;> rfl

/-! ### After the letter of an exponent -/

theorem gatherExponent_eq {ds : List Char} {n : Nat}
    (fits : Nat.ofDigitChars 10 ds n ≤ exponentLimit) :
    gatherExponent ds n = some (Nat.ofDigitChars 10 ds n) := by
  induction ds generalizing n with
  | nil => rfl
  | cons d ds ih =>
    rw [ofDigitChars_cons] at fits ⊢
    have bound := Nat.le_trans (le_ofDigitChars ds _) fits
    rw [gatherExponent, if_neg (by omega)]
    exact ih fits

/-- An exponent that is written with its sign is added. -/
theorem readExponent_signed (negative : Bool) (significand : Nat) (exponent : Int) {first : Int}
    (fits : first.natAbs ≤ exponentLimit) {rest : List Char} (stops : Stops rest) :
    readExponent negative significand exponent
        ((if first < 0 then '-' else '+') :: (NumberLayout.digits first.natAbs ++ rest)) =
      floatNumeral negative significand (exponent + first) rest := by
  have digits : ∀ c ∈ NumberLayout.digits first.natAbs, isDigit c = true :=
    fun _ => NumberLayout.isDigit_of_mem_digits
  have value := NumberLayout.ofDigitChars_digits first.natAbs
  have gathered : gatherExponent (NumberLayout.digits first.natAbs) 0 = some first.natAbs := by
    rw [gatherExponent_eq (by rwa [value]), value]
  have taken := takeWhile_isDigit digits stops
  have dropped := dropWhile_isDigit digits stops
  obtain ⟨c, more, parts, digit⟩ := NumberLayout.exists_digit first.natAbs
  rw [parts] at gathered taken dropped ⊢
  rw [List.cons_append] at taken dropped ⊢
  by_cases down : first < 0
  · have sum : exponent - (first.natAbs : Int) = exponent + first := by omega
    simp only [readExponent, if_pos down, digit, if_true, taken, dropped, gathered, sum]
  · have sum : exponent + (first.natAbs : Int) = exponent + first := by omega
    simp only [readExponent, if_neg down, digit, if_true, taken, dropped, gathered, sum,
      Bool.false_eq_true, if_false]

/-! ### The whole text -/

/-- The text is read as the double `y` wherever it does not go on as a number. -/
def ReadsFloat (negative : Bool) (s : List Char) (y : Binary64) : Prop :=
  ∀ rest, Ends rest → readNumeral negative (s ++ rest) = .ok (.float y, rest)

/-- The definition as an equation of functions: applied to numbers, its match would be evaluated. -/
theorem floatNumeral_def : floatNumeral = fun negative significand exponent rest =>
    match Binary64.ofDecimal? negative significand exponent with
    | some x => .ok (.float x, rest)
    | none => .error .numberOutOfRange := by
  delta floatNumeral
  rfl

theorem floatNumeral_of_some {negative : Bool} {significand : Nat} {exponent : Int} {y : Binary64}
    (h : Binary64.ofDecimal? negative significand exponent = some y) (rest : List Char) :
    floatNumeral negative significand exponent rest = .ok (.float y, rest) := by
  rw [floatNumeral_def]
  dsimp only
  rw [h]

/-- Digits with a point between them are read as a double. -/
theorem readsFloat_pointed (negative : Bool) {whole fraction : List Char} (before : WholePart whole)
    (digits : ∀ c ∈ fraction, isDigit c = true) (ne_nil : fraction ≠ []) :
    ∃ y, ReadsFloat negative (whole ++ '.' :: fraction) y := by
  generalize value : Nat.ofDigitChars 10 whole 0 = n
  have fits := gatherFraction_le fraction (value ▸ before.fits) 0
  obtain ⟨y, read⟩ := Binary64.exists_ofDecimal?_of_nonpos negative fits
    (Int.sub_nonpos_of_le (Int.natCast_nonneg (gatherFraction fraction n 0).2))
  refine ⟨y, fun rest ends => ?_⟩
  rw [List.append_assoc, List.cons_append, readNumeral_whole negative before (stops_cons.mpr rfl),
    value, readAfterWhole, readFraction_digits negative _ 0 digits ne_nil ends.stops,
    readAfterFraction_ends negative _ _ ends, Int.natCast_zero, floatNumeral_of_some read]

theorem isDigit_append {ds es : List Char} (first : ∀ c ∈ ds, isDigit c = true)
    (second : ∀ c ∈ es, isDigit c = true) : ∀ c ∈ ds ++ es, isDigit c = true :=
  fun c mem => (List.mem_append.mp mem).elim (first c) (second c)

theorem isDigit_zeros (k : Nat) : ∀ c ∈ List.replicate k '0', isDigit c = true := by
  intro c mem
  rw [List.eq_of_mem_replicate mem]
  rfl

/-- Sixteen digits always fit. -/
theorem wholePart_of_short {ds : List Char} (digits : ∀ c ∈ ds, isDigit c = true)
    (ne_nil : ds ≠ []) (alone : ∀ more, ds = '0' :: more → more = []) (short : ds.length ≤ 16) :
    WholePart ds := by
  have power : 10 ^ ds.length ≤ 10 ^ 16 := Nat.pow_le_pow_right (by decide) short
  have bound := ofDigitChars_lt digits 0
  refine ⟨⟨⟨digits, ne_nil⟩, alone⟩, ?_⟩
  unfold significandLimit
  omega

/-- The digits before a point inside the digits of a number. -/
theorem wholePart_take {n k : Nat} (positive : 0 < k) (short : k ≤ 16)
    (inner : k < (NumberLayout.digits n).length) : WholePart ((NumberLayout.digits n).take k) := by
  refine wholePart_of_short ?_ ?_ ?_ (by rw [List.length_take]; omega)
  · exact fun c mem => NumberLayout.isDigit_of_mem_digits (List.mem_of_mem_take mem)
  · exact fun none => (List.take_eq_nil_iff.mp none).elim (by omega) Nat.toDigits_ne_nil
  · intro more begins
    obtain ⟨j, rfl⟩ := Nat.exists_eq_add_of_lt positive
    obtain ⟨c, tail, parts, -⟩ := NumberLayout.exists_digit n
    rw [parts, Nat.zero_add, List.take_succ_cons] at begins
    have single := NumberLayout.digits_head (parts.trans (by rw [(List.cons.inj begins).1]))
    rw [parts, single] at inner
    exact absurd inner (by simp)

/-- The digits of a number filled up with zeros to at most sixteen; zero is not filled up. -/
theorem wholePart_filled {n k : Nat} (short : (NumberLayout.digits n).length + k ≤ 16)
    (zero : n = 0 → k = 0) : WholePart (NumberLayout.digits n ++ List.replicate k '0') := by
  refine wholePart_of_short ?_ ?_ ?_ (by rwa [List.length_append, List.length_replicate])
  · exact isDigit_append (fun _ => NumberLayout.isDigit_of_mem_digits) (isDigit_zeros k)
  · exact List.append_ne_nil_of_left_ne_nil Nat.toDigits_ne_nil _
  · intro more begins
    obtain ⟨c, tail, parts, -⟩ := NumberLayout.exists_digit n
    rw [parts, List.cons_append] at begins
    have first := parts.trans (by rw [(List.cons.inj begins).1])
    rw [← (List.cons.inj begins).2, NumberLayout.digits_head first,
      zero (NumberLayout.eq_zero_of_digits first)]
    rfl

/-- With at most sixteen digits before the point, the pointed text has a whole part and a fraction. -/
theorem pointed_parts {n : Nat} {before : Int} (few : before ≤ 16) (zero : n = 0 → before ≤ 1) :
    ∃ whole fraction, NumberLayout.pointed (NumberLayout.digits n) before = whole ++ '.' :: fraction ∧
      WholePart whole ∧ (∀ c ∈ fraction, isDigit c = true) ∧ fraction ≠ [] := by
  have all : ∀ c ∈ NumberLayout.digits n, isDigit c = true :=
    fun _ => NumberLayout.isDigit_of_mem_digits
  have some : NumberLayout.digits n ≠ [] := Nat.toDigits_ne_nil
  unfold NumberLayout.pointed
  split
  · refine ⟨['0'], _, rfl, ?_, isDigit_append (isDigit_zeros _) all, ?_⟩
    · exact wholePart_of_short (isDigit_zeros 1) (by decide) (by simp) (by decide)
    · exact List.append_ne_nil_of_right_ne_nil _ some
  split
  · rename_i inner
    refine ⟨_, _, rfl, wholePart_take (by omega) (by omega) inner, ?_, ?_⟩
    · exact fun c mem => all c (List.mem_of_mem_drop mem)
    · exact fun none => absurd (List.drop_eq_nil_iff.mp none) (by omega)
  · have length := List.length_pos_iff.mpr some
    refine ⟨_, ['0'], rfl, wholePart_filled (by omega) ?_, isDigit_zeros 1, by decide⟩
    intro none
    have one := zero none
    omega

/-- A digit, the others after a point, and a small exponent are read as the decimal they denote. -/
theorem readNumeral_scientific (negative : Bool) {n : Nat} (fits : n ≤ significandLimit) {first : Int}
    (near : first.natAbs ≤ exponentLimit) {rest : List Char} (ends : Ends rest) :
    readNumeral negative (NumberLayout.scientific (NumberLayout.digits n) first ++ rest) =
      floatNumeral negative n (first - ((NumberLayout.digits n).length - 1 : Nat)) rest := by
  have whole := wholePart_digits fits
  have value := NumberLayout.ofDigitChars_digits n
  obtain ⟨c, more, parts, digit⟩ := NumberLayout.exists_digit n
  rw [parts] at whole value ⊢
  have exponent := fun negative significand exponent =>
    readExponent_signed negative significand exponent near ends.stops
  cases more with
  | nil =>
    have text : NumberLayout.scientific [c] first ++ rest =
        [c] ++ 'e' :: (if first < 0 then '-' else '+') ::
          (NumberLayout.digits first.natAbs ++ rest) := by
      simp [NumberLayout.scientific]
    rw [text, readNumeral_whole negative whole (stops_cons.mpr rfl), value, readAfterWhole, exponent]
    congr 1
    rw [List.length_cons, List.length_nil]
    omega
  | cons d more =>
    have inner := fun c mem => whole.digits c (List.mem_cons_of_mem _ mem)
    have total : Nat.ofDigitChars 10 (d :: more) (Nat.ofDigitChars 10 [c] 0) = n := by
      rw [← Nat.ofDigitChars_append]
      exact value
    have leading : WholePart [c] := {
      digits := fun _ mem => whole.digits _ (List.mem_singleton.mp mem ▸ List.mem_cons_self)
      ne_nil := List.cons_ne_nil _ _
      alone := fun _ h => (List.cons.inj h).2.symm
      fits := Nat.le_trans (le_ofDigitChars (d :: more) _) (total ▸ fits) }
    have gathered : gatherFraction (d :: more) (Nat.ofDigitChars 10 [c] 0) 0 =
        (n, (d :: more).length) := by
      rw [gatherFraction_eq 0 (total ▸ fits), total, Nat.zero_add]
    have text : NumberLayout.scientific (c :: d :: more) first ++ rest =
        [c] ++ '.' :: ((d :: more) ++ 'e' :: (if first < 0 then '-' else '+') ::
          (NumberLayout.digits first.natAbs ++ rest)) := by
      simp [NumberLayout.scientific]
    rw [text, readNumeral_whole negative leading (stops_cons.mpr rfl), readAfterWhole,
      readFraction_digits negative _ 0 inner (List.cons_ne_nil _ _) (stops_cons.mpr rfl), gathered,
      readAfterFraction, if_pos (show isExponentLetter 'e' = true from rfl), exponent]
    congr 1
    simp only [List.length_cons]
    omega

theorem isPlain_document (first : Int) :
    NumberLayout.document.isPlain first = true ↔ -5 ≤ first ∧ first ≤ 15 := by
  simp [NumberLayout.isPlain, NumberLayout.document]

/-- The magnitude of every double is read as a double, with either sign before it. -/
theorem readsFloat_magnitude (negative : Bool) (x : Binary64) :
    ∃ y, ReadsFloat negative (NumberLayout.document.magnitude x) y := by
  have digits := x.shortest_short.digits
  have exponent := x.shortest_short.exponent
  obtain ⟨y, read⟩ := x.exists_ofDecimal?_shortest negative
  unfold NumberLayout.magnitude
  generalize x.shortest = d at digits exponent read ⊢
  have fits : d.digits ≤ significandLimit := Nat.le_trans digits (by decide)
  have few := NumberLayout.length_digits_le (k := 19) (by decide)
    (Nat.lt_of_le_of_lt digits (by decide))
  have some : 0 < (NumberLayout.digits d.digits).length :=
    List.length_pos_iff.mpr Nat.toDigits_ne_nil
  dsimp only
  generalize place : (if d.digits = 0 then 0
    else ((NumberLayout.digits d.digits).length : Int) + d.exponent - 1) = first
  by_cases plain : NumberLayout.document.isPlain first = true
  · have zero : d.digits = 0 → first + 1 ≤ 1 := by
      intro zero
      rw [← place, if_pos zero]
      decide
    obtain ⟨whole, fraction, text, before, inner, ne_nil⟩ :=
      pointed_parts (Int.add_le_add_right ((isPlain_document first).mp plain).2 1) zero
    rw [if_pos plain, text]
    exact readsFloat_pointed negative before inner ne_nil
  · have nonzero : d.digits ≠ 0 := by
      intro zero
      rw [← place, if_pos zero] at plain
      exact plain rfl
    rw [if_neg nonzero] at place
    have near : first.natAbs ≤ exponentLimit := by
      unfold exponentLimit
      omega
    have shift : first - ((NumberLayout.digits d.digits).length - 1 : Nat) = d.exponent := by omega
    refine ⟨y, fun rest ends => ?_⟩
    rw [if_neg plain, readNumeral_scientific negative fits near ends, shift,
      floatNumeral_of_some read]

/-- The text of every double is a number. -/
theorem exists_written_float (x : Binary64) :
    ∃ y, Written (.float y) (NumberLayout.document.write x) := by
  obtain ⟨y, read⟩ := readsFloat_magnitude x.negative x
  refine ⟨y, ?_⟩
  by_cases negative : x.negative = true
  · rw [negative] at read
    rw [NumberLayout.write, if_pos negative]
    exact .minus read
  · obtain ⟨c, more, parts, digit⟩ := magnitude_starts .document x
    rw [Bool.eq_false_of_not_eq_true negative, parts] at read
    rw [NumberLayout.write, if_neg negative, parts]
    exact .plain digit read

theorem exists_reads_double (x : Binary64) : ∃ y, Reads 0 double (.float x) y := by
  obtain ⟨y, written⟩ := exists_written_float x
  refine ⟨y, fun sp _ depth levels _ before rest blank ends => ?_⟩
  rw [Value.write, double, numeral_written "f64" written blank ends]
  rfl

theorem exists_reads_value (x : Binary64) : ∃ y, Reads 0 value (.float x) (.float y) := by
  obtain ⟨y, written⟩ := exists_written_float x
  exact ⟨y, fun sp _ depth levels _ before rest blank ends => value_written written levels blank ends⟩

end Json

end CommandDeck
