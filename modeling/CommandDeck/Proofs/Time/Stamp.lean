import CommandDeck.Proofs.Json.Fraction
import CommandDeck.Proofs.Time.Calendar
import CommandDeck.Time.Stamp

/-!
# Stamps read back

A stamp with milliseconds says a date and a time of the day in fields of digits between marks. Only the
year has no fixed width, but it stands first, so that a stamp is read in one way from its end. What it says
denotes an instant by the rules of the calendar, and this is the instant that it is the stamp of.
-/

namespace CommandDeck

/-- A date and a time of the day. -/
@[ext]
structure Moment where
  date : Date
  hour : Nat
  minute : Nat
  second : Nat
  milli : Nat

namespace Moment

/-- A date of the calendar and a time of a day that has 24 hours. -/
structure IsValid (m : Moment) : Prop where
  date : m.date.IsValid
  hour_lt : m.hour < 24
  minute_lt : m.minute < 60
  second_lt : m.second < 60
  milli_lt : m.milli < 1000

/-- The milliseconds since the beginning of 1970. -/
def instant (m : Moment) : Int :=
  (((m.date.dayNumber * 24 + m.hour) * 60 + m.minute) * 60 + m.second) * 1000 + m.milli

/-- The date and the time of the day at an instant. -/
def ofInstant (millis : Int) : Moment :=
  let seconds := ((millis % Stamp.millisPerDay) / 1000).toNat
  { date := Date.ofDayNumber (millis / Stamp.millisPerDay)
    hour := seconds / 3600
    minute := seconds / 60 % 60
    second := seconds % 60
    milli := (millis % 1000).toNat }

theorem ofInstant_isValid (millis : Int) : (ofInstant millis).IsValid := by
  have date := (Date.ofDayNumber_counts (millis / Stamp.millisPerDay)).1
  have seconds : ((millis % Stamp.millisPerDay) / 1000).toNat < 3600 * 24 := by
    unfold Stamp.millisPerDay
    omega
  have milli : (millis % 1000).toNat < 1000 := by omega
  exact ⟨date, Nat.div_lt_of_lt_mul seconds, Nat.mod_lt _ (by decide), Nat.mod_lt _ (by decide),
    milli⟩

theorem instant_ofInstant (millis : Int) : (ofInstant millis).instant = millis := by
  have number := (Date.ofDayNumber_counts (millis / Stamp.millisPerDay)).2
  unfold instant ofInstant
  simp only [number]
  unfold Stamp.millisPerDay
  omega

end Moment

namespace Stamp

open Text (isDigit)
open NumberLayout (digits)

/-- Digits, as many as the width, that stand for a number. -/
structure Field (width : Nat) (ds : List Char) (n : Nat) : Prop where
  length : ds.length = width
  digits : ∀ c ∈ ds, isDigit c = true
  value : Nat.ofDigitChars 10 ds 0 = n

/-- A year has four digits, or it has a sign and at least four: a plus beyond 9999, a minus before the
year 0. -/
inductive Year : List Char → Int → Prop
  | plain {ds : List Char} {n : Nat} : Field 4 ds n → Year ds n
  | later {width : Nat} {ds : List Char} {n : Nat} :
      Field width ds n → 9999 < n → Year ('+' :: ds) n
  | earlier {width : Nat} {ds : List Char} {n : Nat} :
      Field width ds n → 4 ≤ width → 0 < n → Year ('-' :: ds) (-n)

/-- The form of a stamp with milliseconds. -/
inductive Spells : List Char → Moment → Prop
  | fields {year month day hour minute second milli : List Char} {m : Moment} :
      Year year m.date.year → Field 2 month m.date.month → Field 2 day m.date.day →
      Field 2 hour m.hour → Field 2 minute m.minute → Field 2 second m.second →
      Field 3 milli m.milli →
      Spells (year ++ '-' :: month ++ '-' :: day ++ 'T' :: hour ++ ':' :: minute ++ ':' :: second ++
        '.' :: milli ++ ['Z']) m

/-- A stamp that says a date of the calendar and a time of the day denotes an instant. -/
def Denotes (stamp : String) (millis : Int) : Prop :=
  ∃ m : Moment, Spells stamp.toList m ∧ m.IsValid ∧ m.instant = millis

/-! ### A stamp says one moment -/

theorem Field.unique {width other : Nat} {ds : List Char} {m n : Nat} (h : Field width ds m)
    (h' : Field other ds n) : m = n :=
  h.value.symm.trans h'.value

/-- The last field of a text is known by its width. -/
theorem Field.last {width : Nat} {mark : Char} {s t ds es : List Char} {m n : Nat}
    (h : Field width ds m) (h' : Field width es n) (same : s ++ mark :: ds = t ++ mark :: es) :
    s = t ∧ m = n := by
  have lengths : (mark :: ds).length = (mark :: es).length := by
    rw [List.length_cons, List.length_cons, h.length, h'.length]
  obtain ⟨fronts, fields⟩ := List.append_inj' same lengths
  cases fields
  exact ⟨fronts, h.unique h'⟩

theorem Field.not_sign {width : Nat} {ds : List Char} {n : Nat} {c : Char}
    (h : Field width (c :: ds) n) : c ≠ '+' ∧ c ≠ '-' := by
  have digit := h.digits c List.mem_cons_self
  constructor
  · rintro rfl
    exact absurd digit (by decide)
  · rintro rfl
    exact absurd digit (by decide)

theorem Year.unique {ds : List Char} {y z : Int} (h : Year ds y) (h' : Year ds z) : y = z := by
  cases h with
  | plain field =>
    cases h' with
    | plain other => rw [field.unique other]
    | later _ _ => exact absurd rfl field.not_sign.1
    | earlier _ _ _ => exact absurd rfl field.not_sign.2
  | later field _ =>
    cases h' with
    | plain other => exact absurd rfl other.not_sign.1
    | later other _ => rw [field.unique other]
  | earlier field _ _ =>
    cases h' with
    | plain other => exact absurd rfl other.not_sign.2
    | earlier other _ _ => rw [field.unique other]

theorem Spells.unique {text other : List Char} {m m' : Moment} (h : Spells text m)
    (h' : Spells other m') (same : text = other) : m = m' := by
  cases h with
  | fields year month day hour minute second milli =>
    cases h' with
    | fields year' month' day' hour' minute' second' milli' =>
      -- all fields but the year have a fixed width, so they come off from the end
      replace same := (List.append_inj' same rfl).1
      obtain ⟨same, millis⟩ := milli.last milli' same
      obtain ⟨same, seconds⟩ := second.last second' same
      obtain ⟨same, minutes⟩ := minute.last minute' same
      obtain ⟨same, hours⟩ := hour.last hour' same
      obtain ⟨same, days⟩ := day.last day' same
      obtain ⟨rfl, months⟩ := month.last month' same
      exact Moment.ext (Date.ext (year.unique year') months days) hours minutes seconds millis

theorem Denotes.unique {stamp : String} {a b : Int} (h : Denotes stamp a) (h' : Denotes stamp b) :
    a = b := by
  obtain ⟨m, spelled, -, instant⟩ := h
  obtain ⟨m', spelled', -, instant'⟩ := h'
  rw [← instant, ← instant', spelled.unique spelled' rfl]

/-! ### The stamp of an instant -/

theorem field_padded (width n : Nat) : Field (max width (digits n).length) (padded width n) n where
  length := by
    rw [padded, List.length_append, List.length_replicate]
    omega
  digits := by
    intro c mem
    rcases List.mem_append.mp mem with zero | digit
    · rw [(List.mem_replicate.mp zero).2]
      rfl
    · exact NumberLayout.isDigit_of_mem_digits digit
  value := by
    rw [padded, Nat.ofDigitChars_append, Nat.ofDigitChars_replicate_zero, Nat.mul_zero]
    exact NumberLayout.ofDigitChars_digits n

theorem field_of_lt {width n : Nat} (pos : 0 < width) (lt : n < 10 ^ width) :
    Field width (padded width n) n := by
  have field := field_padded width n
  rwa [Nat.max_eq_left (NumberLayout.length_digits_le pos lt)] at field

theorem year_yearText (year : Int) : Year (yearText year) year := by
  unfold yearText
  rcases Int.lt_or_le year 0 with negative | positive
  · obtain ⟨n, rfl⟩ : ∃ n : Nat, year = -n := ⟨year.natAbs, by omega⟩
    rw [if_neg (by omega), if_pos negative, Int.natAbs_neg, Int.natAbs_natCast]
    exact .earlier (field_padded 4 n) (Nat.le_max_left _ _) (by omega)
  · obtain ⟨n, rfl⟩ := Int.eq_ofNat_of_zero_le positive
    rw [Int.natAbs_natCast]
    by_cases plain : n ≤ 9999
    · rw [if_pos (by omega)]
      exact .plain (field_of_lt (by decide) (by omega))
    · rw [if_neg (by omega), if_neg (by omega)]
      exact .later (field_padded 4 n) (by omega)

theorem spells_withMillis (millis : Int) :
    Spells (withMillis millis).toList (.ofInstant millis) := by
  obtain ⟨date, hour_lt, minute_lt, second_lt, milli_lt⟩ := Moment.ofInstant_isValid millis
  have month : (Moment.ofInstant millis).date.month < 10 ^ 2 := by
    have le := date.month_le
    omega
  have day : (Moment.ofInstant millis).date.day < 10 ^ 2 := by
    have le := date.day_le.trans (Date.monthLength_le _ _)
    omega
  have hour : (Moment.ofInstant millis).hour < 10 ^ 2 := by omega
  have minute : (Moment.ofInstant millis).minute < 10 ^ 2 := by omega
  have second : (Moment.ofInstant millis).second < 10 ^ 2 := by omega
  have two : 0 < 2 := by decide
  rw [withMillis, String.toList_ofList]
  exact .fields (year_yearText _) (field_of_lt two month) (field_of_lt two day)
    (field_of_lt two hour) (field_of_lt two minute) (field_of_lt two second)
    (field_of_lt (by decide) milli_lt)

theorem denotes_withMillis (millis : Int) : Denotes (withMillis millis) millis :=
  ⟨.ofInstant millis, spells_withMillis millis, Moment.ofInstant_isValid millis,
    Moment.instant_ofInstant millis⟩

/-- A stamp denotes the instant that it is the stamp of, and no other. -/
theorem denotes_withMillis_iff {millis other : Int} :
    Denotes (withMillis millis) other ↔ other = millis := by
  constructor
  · exact fun denoted => denoted.unique (denotes_withMillis millis)
  · rintro rfl
    exact denotes_withMillis other

theorem withMillis_injective {a b : Int} (same : withMillis a = withMillis b) : a = b := by
  have denoted := denotes_withMillis a
  rw [same, denotes_withMillis_iff] at denoted
  exact denoted

/-- A year of five digits has a sign. -/
example : withMillis 253402300799999 = "9999-12-31T23:59:59.999Z" ∧
    withMillis 253402300800000 = "+10000-01-01T00:00:00.000Z" := by decide

end Stamp

end CommandDeck
