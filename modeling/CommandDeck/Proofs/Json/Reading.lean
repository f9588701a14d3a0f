import Mathlib.Data.List.Forall2
import CommandDeck.Json.Document
import CommandDeck.Proofs.Json.Escape
import CommandDeck.Proofs.Json.WholeNumber

/-!
# Written values read back

`Reads` says that a reader gets something from a written value, whatever white space stands between
the parts of the value and before it, and whatever comes after it. It holds of the readers of strings,
booleans and whole numbers, and it passes from the items of a list to the list.
-/

namespace CommandDeck

namespace NumberLayout

theorem exists_digit (n : Nat) : ∃ c more, digits n = c :: more ∧ Text.isDigit c = true := by
  obtain ⟨c, more, parts⟩ := List.exists_cons_of_ne_nil
    (show digits n ≠ [] from Nat.toDigits_ne_nil)
  exact ⟨c, more, parts, isDigit_of_mem_digits (by rw [parts]; exact List.mem_cons_self)⟩

end NumberLayout

namespace Json

/-- Text of white space only. -/
def Blank (s : List Char) : Prop := ∀ c ∈ s, isSpace c = true

structure Spacing.IsBlank (sp : Spacing) : Prop where
  lineBreak : ∀ depth, Blank (sp.lineBreak depth)
  afterColon : Blank sp.afterColon

theorem blank_nil : Blank [] := fun _ h => nomatch h

theorem Spacing.indented_isBlank : Spacing.indented.IsBlank where
  lineBreak := by
    intro depth c h
    rcases List.mem_cons.mp h with rfl | h
    · rfl
    · rw [List.eq_of_mem_replicate h]
      rfl
  afterColon := by
    intro c h
    rw [List.mem_singleton.mp h]
    rfl

theorem skipSpace_blank {before : List Char} (blank : Blank before) (s : List Char) :
    skipSpace (before ++ s) = skipSpace s := List.dropWhile_append_of_pos blank

theorem skipSpace_cons {c : Char} (visible : isSpace c = false) (s : List Char) :
    skipSpace (c :: s) = c :: s := by
  simp [skipSpace, visible]

theorem skipSpace_to {before : List Char} (blank : Blank before) {c : Char}
    (visible : isSpace c = false) (s : List Char) : skipSpace (before ++ c :: s) = c :: s := by
  rw [skipSpace_blank blank, skipSpace_cons visible]

theorem atValue_to {α : Type} (read : Char → List Char → Except ReadError (α × List Char))
    {before : List Char} (blank : Blank before) {c : Char} (visible : isSpace c = false)
    (s : List Char) : atValue read (before ++ c :: s) = read c s := by
  simp only [atValue, skipSpace_to blank visible]

theorem ends_blank {before s : List Char} (blank : Blank before) (ends : Ends s) :
    Ends (before ++ s) := by
  cases before with
  | nil => exact ends
  | cons c more =>
    have space : isSpace c = true := blank c List.mem_cons_self
    rw [List.cons_append, ends_cons]
    simp only [isSpace, Bool.or_eq_true, beq_iff_eq] at space
    rcases space with ((rfl | rfl) | rfl) | rfl <;> decide

theorem ne_of_isDigit {c d : Char} (digit : Text.isDigit c = true) (other : Text.isDigit d = false) :
    c ≠ d := by
  rintro rfl
  rw [digit] at other
  cases other

/-- A value can begin with this character, and a value other than `null` does not begin with an `n`. -/
structure Starts (v : Value) (c : Char) : Prop where
  visible : isSpace c = false
  opens : c ≠ ']'
  letter : v ≠ .null → c ≠ 'n'

theorem starts_digit (v : Value) {c : Char} (digit : Text.isDigit c = true) : Starts v c where
  visible := by
    have other : ∀ d, Text.isDigit d = false → (c == d) = false := fun d hd =>
      beq_eq_false_iff_ne.mpr (ne_of_isDigit digit hd)
    simp only [isSpace, other ' ' rfl, other '\n' rfl, other '\t' rfl, other '\r' rfl, Bool.or_false]
  opens := ne_of_isDigit digit rfl
  letter := fun _ => ne_of_isDigit digit rfl

theorem starts_minus (v : Value) : Starts v '-' := ⟨rfl, by decide, fun _ => by decide⟩

theorem pointed_starts {c : Char} (digit : Text.isDigit c = true) (more : List Char)
    (before : Int) :
    ∃ d tail, NumberLayout.pointed (c :: more) before = d :: tail ∧ Text.isDigit d = true := by
  unfold NumberLayout.pointed
  split
  · exact ⟨'0', _, rfl, rfl⟩
  · split
    · obtain ⟨k, size⟩ : ∃ k, before.natAbs = k + 1 := ⟨before.natAbs - 1, by omega⟩
      rw [size]
      exact ⟨c, _, rfl, digit⟩
    · exact ⟨c, _, rfl, digit⟩

theorem scientific_starts {c : Char} (digit : Text.isDigit c = true) (more : List Char)
    (first : Int) :
    ∃ d tail, NumberLayout.scientific (c :: more) first = d :: tail ∧ Text.isDigit d = true := by
  cases more with
  | nil => exact ⟨c, _, rfl, digit⟩
  | cons d more => exact ⟨c, _, rfl, digit⟩

theorem magnitude_starts (l : NumberLayout) (x : Binary64) :
    ∃ c tail, l.magnitude x = c :: tail ∧ Text.isDigit c = true := by
  obtain ⟨c, more, parts, digit⟩ := NumberLayout.exists_digit x.shortest.digits
  simp only [NumberLayout.magnitude, parts]
  generalize (if x.shortest.digits = 0 then (0 : Int)
    else ((c :: more).length : Int) + x.shortest.exponent - 1) = first
  split
  · exact pointed_starts digit more _
  · exact scientific_starts digit more _

/-- The first character of a written value is never one at which a reader goes another way. -/
theorem write_starts (v : Value) (sp : Spacing) (depth : Nat) :
    ∃ c tail, v.write sp depth = c :: tail ∧ Starts v c := by
  match v with
  | .null => exact ⟨_, _, rfl, rfl, by decide, fun h => absurd rfl h⟩
  | .boolean true => exact ⟨_, _, rfl, rfl, by decide, fun _ => by decide⟩
  | .boolean false => exact ⟨_, _, rfl, rfl, by decide, fun _ => by decide⟩
  | .integer i =>
    obtain ⟨c, more, parts, digit⟩ := NumberLayout.exists_digit i.natAbs
    by_cases negative : i < 0
    · exact ⟨'-', _, if_pos negative, starts_minus _⟩
    · exact ⟨c, more, (if_neg negative).trans parts, starts_digit _ digit⟩
  | .float x =>
    obtain ⟨c, more, parts, digit⟩ := magnitude_starts .document x
    by_cases negative : x.negative = true
    · exact ⟨'-', _, if_pos negative, starts_minus _⟩
    · exact ⟨c, more, (if_neg negative).trans parts, starts_digit _ digit⟩
  | .string s => exact ⟨_, _, rfl, rfl, by decide, fun _ => by decide⟩
  | .array [] => exact ⟨_, _, rfl, rfl, by decide, fun _ => by decide⟩
  | .array (item :: items) => exact ⟨_, _, rfl, rfl, by decide, fun _ => by decide⟩
  | .object [] => exact ⟨_, _, rfl, rfl, by decide, fun _ => by decide⟩
  | .object ((key, value) :: members) => exact ⟨_, _, rfl, rfl, by decide, fun _ => by decide⟩

/-- Where `n` levels may be opened, `read` gets `a` from the value `v` written with white space between
its parts. -/
def Reads {α : Type} (n : Nat) (read : Reader α) (v : Value) (a : α) : Prop :=
  ∀ sp : Spacing, sp.IsBlank → ∀ depth levels, n ≤ levels → ∀ before rest, Blank before → Ends rest →
    read levels (before ++ (v.write sp depth ++ rest)) = .ok (a, rest)

theorem Reads.mono {α : Type} {n k : Nat} {read : Reader α} {v : Value} {a : α}
    (h : Reads n read v a) (le : n ≤ k) : Reads k read v a :=
  fun sp blank depth levels enough => h sp blank depth levels (Nat.le_trans le enough)

theorem writeString_append (s : String) (rest : List Char) :
    writeString s ++ rest = '"' :: (s.toList.flatMap escapedChar ++ '"' :: rest) := by
  simp [writeString]

theorem reads_string (s : String) : Reads 0 string (.string s) s := by
  intro sp _ depth levels _ before rest blank _
  rw [Value.write, writeString_append, string, atValue_to _ blank rfl, if_pos rfl,
    readString_escaped]

theorem reads_boolean (b : Bool) : Reads 0 boolean (.boolean b) b := by
  intro sp _ depth levels _ before rest blank _
  cases b with
  | true => exact atValue_to _ blank rfl _
  | false => exact atValue_to _ blank rfl _

/-- The integers that are read without a rounding. -/
def FitsNumeral (i : Int) : Prop := -0x8000000000000000 ≤ i ∧ i ≤ 0xFFFFFFFFFFFFFFFF

/-- The text is a number with its sign that is read as `m` wherever it does not go on as a number. -/
inductive Written (m : Numeral) : List Char → Prop where
  | plain {c : Char} {tail : List Char} (digit : Text.isDigit c = true)
      (read : ∀ rest, Ends rest → readNumeral false (c :: tail ++ rest) = .ok (m, rest)) :
      Written m (c :: tail)
  | minus {s : List Char}
      (read : ∀ rest, Ends rest → readNumeral true (s ++ rest) = .ok (m, rest)) :
      Written m ('-' :: s)

theorem written_integer {i : Int} (fits : FitsNumeral i) :
    Written (.integer i) (NumberLayout.integer i) := by
  obtain ⟨low, high⟩ := fits
  have small : i.natAbs ≤ significandLimit := by
    unfold significandLimit
    omega
  by_cases negative : i < 0
  · have range : 0 < i.natAbs ∧ i.natAbs ≤ 0x8000000000000000 := by omega
    have value : -(i.natAbs : Int) = i := by omega
    rw [NumberLayout.integer, if_pos negative]
    refine .minus fun rest ends => ?_
    rw [readNumeral_digits true small ends, wholeNumeral, if_pos rfl, if_pos range, value]
  · have value : (i.natAbs : Int) = i := by omega
    obtain ⟨c, more, parts, digit⟩ := NumberLayout.exists_digit i.natAbs
    rw [NumberLayout.integer, if_neg negative, parts]
    refine .plain digit fun rest ends => ?_
    rw [← parts, readNumeral_digits false small ends, wholeNumeral, if_neg (by decide), value]

/-- A reader that reads numbers after a sign and from a digit on gets the number that is written. -/
theorem atValue_written {α : Type} {read : Char → List Char → Except ReadError (α × List Char)}
    {f : Numeral → α}
    (minus : ∀ s, read '-' s = (readNumeral true s).map fun r => (f r.1, r.2))
    (digits : ∀ c s, Text.isDigit c = true →
      read c s = (readNumeral false (c :: s)).map fun r => (f r.1, r.2))
    {m : Numeral} {s : List Char} (written : Written m s) {before rest : List Char}
    (blank : Blank before) (ends : Ends rest) :
    atValue read (before ++ (s ++ rest)) = .ok (f m, rest) := by
  cases written with
  | plain digit numeral =>
    have whole := numeral rest ends
    rw [List.cons_append] at whole ⊢
    rw [atValue_to read blank (starts_digit .null digit).visible, digits _ _ digit, whole]
    rfl
  | minus numeral =>
    rw [List.cons_append, atValue_to read blank rfl, minus, numeral rest ends]
    rfl

theorem numeral_written (expected : String) {m : Numeral} {s : List Char} (written : Written m s)
    {before rest : List Char} (blank : Blank before) (ends : Ends rest) :
    numeral expected (before ++ (s ++ rest)) = .ok (m, rest) := by
  have same : ∀ r : Except ReadError (Numeral × List Char), r = r.map fun r => (id r.1, r.2) := by
    intro r
    cases r <;> rfl
  refine atValue_written (f := id) (fun s => ?_) (fun c s digit => ?_) written blank ends
  · rw [if_pos rfl]
    exact same _
  · rw [if_neg (ne_of_isDigit digit rfl), if_pos digit]
    exact same _

theorem reads_lineNumber (n : UInt32) : Reads 0 lineNumber (.integer n.toNat) n := by
  intro sp _ depth levels _ before rest blank ends
  have small := n.toNat_lt
  have range : (0 : Int) ≤ n.toNat ∧ (n.toNat : Int) < 0x100000000 := by omega
  have written := written_integer (i := n.toNat) ⟨by omega, by omega⟩
  simp only [Value.write, lineNumber, numeral_written "u32" written blank ends, if_pos range]
  rw [Int.toNat_natCast, UInt32.ofNat_toNat]

theorem reads_double {i : Int} (fits : FitsNumeral i) :
    Reads 0 double (.integer i) (doubleOfInt i) := by
  intro sp _ depth levels _ before rest blank ends
  rw [Value.write, double, numeral_written "f64" (written_integer fits) blank ends]
  rfl

theorem value_eq (levels : Nat) : ∃ inner, value levels = atValue (valueAt inner) := by
  cases levels with
  | zero => exact ⟨none, rfl⟩
  | succ levels => exact ⟨some fun _ => value levels, rfl⟩

theorem reads_value_boolean (b : Bool) : Reads 0 value (.boolean b) (.boolean b) := by
  intro sp _ depth levels _ before rest blank _
  obtain ⟨inner, read⟩ := value_eq levels
  rw [read]
  cases b with
  | true => exact atValue_to _ blank rfl _
  | false => exact atValue_to _ blank rfl _

theorem reads_value_string (s : String) : Reads 0 value (.string s) (.string s) := by
  intro sp _ depth levels _ before rest blank _
  obtain ⟨inner, read⟩ := value_eq levels
  rw [read, Value.write, writeString_append, atValue_to _ blank rfl, valueAt, readString_escaped]
  rfl

theorem valueAt_digit (inner : Option (Reader Value)) {c : Char} (digit : Text.isDigit c = true)
    (rest : List Char) :
    valueAt inner c rest =
      (readNumeral false (c :: rest)).map fun r => (.ofNumeral r.1, r.2) := by
  unfold valueAt
  split
  case h_8 => exact if_pos digit
  all_goals exact absurd digit (by decide)

theorem value_written {m : Numeral} {s : List Char} (written : Written m s) (levels : Nat)
    {before rest : List Char} (blank : Blank before) (ends : Ends rest) :
    value levels (before ++ (s ++ rest)) = .ok (.ofNumeral m, rest) := by
  obtain ⟨inner, read⟩ := value_eq levels
  rw [read]
  exact atValue_written (fun _ => rfl) (fun _ s digit => valueAt_digit inner digit s) written blank
    ends

theorem reads_value_integer {i : Int} (fits : FitsNumeral i) :
    Reads 0 value (.integer i) (.integer i) := by
  intro sp _ depth levels _ before rest blank ends
  exact value_written (written_integer fits) levels blank ends

theorem nextItem?_first {before : List Char} (blank : Blank before) {v : Value} {c : Char}
    (starts : Starts v c) (s : List Char) :
    nextItem? true (before ++ c :: s) = .ok (some (c :: s)) := by
  simp only [nextItem?, skipSpace_to blank starts.visible, if_neg starts.opens, if_true]

theorem nextItem?_next {before : List Char} (blank : Blank before) {v : Value} {c : Char}
    (starts : Starts v c) (s : List Char) :
    nextItem? false (',' :: (before ++ c :: s)) = .ok (some (c :: s)) := by
  have comma : skipSpace (',' :: (before ++ c :: s)) = ',' :: (before ++ c :: s) :=
    skipSpace_cons rfl _
  simp only [nextItem?, comma, skipSpace_to blank starts.visible]
  rw [if_neg (by decide), if_neg (by decide)]
  simp only [if_true]
  split
  · rename_i impossible
    cases impossible
  · rename_i same
    exact absurd (List.cons.inj same).1 starts.opens
  · rename_i same
    obtain ⟨rfl, rfl⟩ := List.cons.inj same
    rfl

theorem nextItem?_close (first : Bool) {before : List Char} (blank : Blank before)
    (s : List Char) : nextItem? first (before ++ ']' :: s) = .ok none := by
  simp only [nextItem?, skipSpace_to blank (c := ']') rfl, if_true]

theorem endList_close {before : List Char} (blank : Blank before) (s : List Char) :
    endList (before ++ ']' :: s) = .ok s := by
  simp only [endList, skipSpace_to blank (c := ']') rfl, if_true]

theorem length_le_writeItems (sp : Spacing) (depth : Nat) (vs : List Value) :
    vs.length ≤ (Value.writeItems sp depth vs).length := by
  induction vs with
  | nil => exact Nat.zero_le _
  | cons v vs ih =>
    simp only [Value.writeItems, List.length_cons, List.length_append]
    omega

section Lists

variable {α : Type} {n : Nat} {read : Reader α} {vs : List Value} {items : List α}

theorem ends_writeItems {sp : Spacing} (spacing : sp.IsBlank) (depth outer : Nat)
    (vs : List Value) (rest : List Char) :
    Ends (Value.writeItems sp depth vs ++ (sp.lineBreak outer ++ ']' :: rest)) := by
  cases vs with
  | nil =>
    change Ends (sp.lineBreak outer ++ ']' :: rest)
    exact ends_blank (spacing.lineBreak outer) (ends_cons.mpr (by decide))
  | cons v vs => exact ends_cons.mpr (by decide)

/-- The items after the first are read one by one up to the bracket. -/
theorem itemsFrom_writeItems (each : List.Forall₂ (Reads n read) vs items) {sp : Spacing}
    (spacing : sp.IsBlank) (depth outer : Nat) {levels : Nat} (enough : n ≤ levels)
    (budget : List Char) (room : vs.length < budget.length) (before : List α)
    (rest : List Char) :
    itemsFrom read levels budget false before
        (Value.writeItems sp depth vs ++ (sp.lineBreak outer ++ ']' :: rest)) =
      .ok (before.reverse ++ items, sp.lineBreak outer ++ ']' :: rest) := by
  induction each generalizing budget before with
  | nil =>
    cases budget with
    | nil => cases room
    | cons _ budget =>
      rw [Value.writeItems, List.nil_append, itemsFrom,
        nextItem?_close false (spacing.lineBreak outer)]
      simp
  | @cons v item vs items one _ ih =>
    cases budget with
    | nil => cases room
    | cons _ budget =>
      obtain ⟨c, tail, parts, starts⟩ := write_starts v sp depth
      have item := one sp spacing depth levels enough [] _ blank_nil
        (ends_writeItems spacing depth outer vs rest)
      rw [List.nil_append, parts, List.cons_append] at item
      simp only [Value.writeItems, List.cons_append, List.append_assoc, parts, itemsFrom,
        nextItem?_next (spacing.lineBreak depth) starts, item]
      rw [ih budget (Nat.lt_of_succ_lt_succ room)]
      simp

theorem listTail_write (each : List.Forall₂ (Reads n read) vs items) {sp : Spacing}
    (spacing : sp.IsBlank) (depth : Nat) {levels : Nat} (enough : n ≤ levels)
    (rest : List Char) :
    ∃ s, Value.write sp depth (.array vs) ++ rest = '[' :: s ∧
      listTail read levels s = .ok (items, rest) := by
  cases each with
  | nil =>
    refine ⟨']' :: rest, rfl, ?_⟩
    have closed := nextItem?_close true blank_nil rest
    have ended := endList_close blank_nil rest
    rw [List.nil_append] at closed ended
    simp only [listTail, itemsFrom, closed, List.reverse_nil, ended]
    rfl
  | @cons v item vs items one others =>
    obtain ⟨c, tail, parts, starts⟩ := write_starts v sp (depth + 1)
    let after := Value.writeItems sp (depth + 1) vs ++ (sp.lineBreak depth ++ ']' :: rest)
    have text : Value.write sp depth (.array (v :: vs)) ++ rest =
        '[' :: (sp.lineBreak (depth + 1) ++ c :: (tail ++ after)) := by
      simp [Value.write, parts, after]
    refine ⟨_, text, ?_⟩
    have first := one sp spacing (depth + 1) levels enough [] after blank_nil
      (ends_writeItems spacing (depth + 1) depth vs rest)
    rw [List.nil_append, parts, List.cons_append] at first
    obtain ⟨d, budget, longer⟩ :=
      List.exists_cons_of_length_pos (l := sp.lineBreak (depth + 1) ++ c :: (tail ++ after))
        (by simp only [List.length_append, List.length_cons]; omega)
    have room : vs.length < budget.length := by
      have size := congrArg List.length longer
      have short := length_le_writeItems sp (depth + 1) vs
      simp only [List.length_append, List.length_cons, after] at size
      omega
    have later := itemsFrom_writeItems others spacing (depth + 1) depth enough budget room [item] rest
    rw [listTail]
    nth_rewrite 1 [longer]
    simp only [itemsFrom, nextItem?_first (spacing.lineBreak (depth + 1)) starts, first]
    simp only [after, later, endList_close (spacing.lineBreak depth)]
    rfl

/-- A list is read when its items are. -/
theorem reads_list (each : List.Forall₂ (Reads n read) vs items) :
    Reads (n + 1) (list read) (.array vs) items := by
  intro sp spacing depth levels enough before rest blank _
  obtain ⟨levels, rfl⟩ : ∃ k, levels = k + 1 := ⟨levels - 1, by omega⟩
  obtain ⟨s, text, read⟩ := listTail_write each spacing depth (Nat.le_of_succ_le_succ enough) rest
  rw [text, list, atValue_to _ blank rfl, if_pos rfl]
  exact read

end Lists

end Json

end CommandDeck
