import Mathlib.Tactic.IntervalCases
import CommandDeck.Time.Calendar

/-!
# Days counted by the calendar

A date has a number that is counted by the rules of the calendar alone: the days of the years from 1970 on
(or less those of the years up to 1970), the days of the months before, and the days of the month. The date
that the cycles of 400 years give for a number is a date of the calendar and has this number.
-/

namespace CommandDeck

attribute [ext] Date

namespace Date

/-- A month of the year and a day of the month. -/
structure IsValid (d : Date) : Prop where
  month_pos : 1 ≤ d.month
  month_le : d.month ≤ 12
  day_pos : 1 ≤ d.day
  day_le : d.day ≤ monthLength d.year d.month

/-- The days of the first months of a year. -/
def daysOfMonths (year : Int) : Nat → Nat
  | 0 => 0
  | count + 1 => daysOfMonths year count + monthLength year (count + 1)

def yearLength (year : Int) : Nat := daysOfMonths year 12

/-- The days of years that follow one another. -/
def daysOfYears (first : Int) : Nat → Nat
  | 0 => 0
  | count + 1 => daysOfYears first count + yearLength (first + count)

/-- The days from the first of January 1970 to the first of January of a year, counted downwards for the
years before. -/
def yearStart (year : Int) : Int :=
  if 1970 ≤ year then daysOfYears 1970 (year - 1970).toNat
  else -daysOfYears year (1970 - year).toNat

def dayNumber (d : Date) : Int := yearStart d.year + daysOfMonths d.year (d.month - 1) + (d.day - 1)

/-! ### Months -/

/-- The days of the months from March on, as many months as `k`. -/
def sinceMarch (k : Nat) : Nat := (153 * k + 2) / 5

def leapDays (year : Int) : Nat := if isLeapYear year then 1 else 0

theorem monthLength_february (year : Int) : monthLength year 2 = 28 + leapDays year := by
  rw [monthLength, if_pos rfl, leapDays]
  split <;> rfl

theorem monthLength_le (year : Int) (month : Nat) : monthLength year month ≤ 31 := by
  unfold monthLength
  split
  · split <;> decide
  · split <;> decide

/-- From March to December the lengths of the months follow from 153 days in five months. -/
theorem sinceMarch_succ (year : Int) {k : Nat} (lt : k < 10) :
    sinceMarch (k + 1) = sinceMarch k + monthLength year (k + 3) := by
  interval_cases k <;> rfl

theorem daysOfMonths_fromMarch (year : Int) {k : Nat} (le : k ≤ 10) :
    daysOfMonths year (k + 2) = 59 + leapDays year + sinceMarch k := by
  induction k with
  | zero =>
    have january : daysOfMonths year 1 = 31 := rfl
    have february := monthLength_february year
    have none : sinceMarch 0 = 0 := rfl
    rw [Nat.zero_add, daysOfMonths, january, february, none]
    omega
  | succ k ih =>
    have before := ih (by omega)
    have here := sinceMarch_succ year (show k < 10 by omega)
    have next : daysOfMonths year (k + 2 + 1) =
      daysOfMonths year (k + 2) + monthLength year (k + 3) := rfl
    rw [Nat.add_right_comm k 1 2]
    omega

/-! ### Years -/

/-- The days from the first of March of the year 0 to the first of March of a year. -/
def marchStart (year : Int) : Int := 365 * year + year / 4 - year / 100 + year / 400

/-- The leap day of a year is the last day before its first of March. -/
theorem leapDays_eq (year : Int) :
    (leapDays year : Int) = marchStart year - marchStart (year - 1) - 365 := by
  unfold leapDays isLeapYear marchStart
  simp only [Bool.and_eq_true, Bool.or_eq_true, beq_iff_eq, bne_iff_ne]
  split <;> omega

theorem yearLength_eq (year : Int) :
    (yearLength year : Int) = marchStart year - marchStart (year - 1) := by
  have months : yearLength year = 59 + leapDays year + sinceMarch 10 :=
    daysOfMonths_fromMarch year (Nat.le_refl 10)
  have fromMarch : sinceMarch 10 = 306 := rfl
  have leap := leapDays_eq year
  omega

theorem daysOfYears_eq (first : Int) (count : Nat) :
    (daysOfYears first count : Int) = marchStart (first + count - 1) - marchStart (first - 1) := by
  induction count with
  | zero =>
    rw [Int.natCast_zero, Int.add_zero, Int.sub_self]
    rfl
  | succ count ih =>
    have last := yearLength_eq (first + count)
    rw [daysOfYears, Int.natCast_succ, ← Int.add_assoc, Int.add_sub_cancel]
    omega

theorem yearStart_eq (year : Int) :
    yearStart year = marchStart (year - 1) + 306 - epochOffset := by
  have epoch : marchStart (1970 - 1) + 306 = epochOffset := rfl
  unfold yearStart
  split
  · have on := daysOfYears_eq 1970 (year - 1970).toNat
    have last : 1970 + ((year - 1970).toNat : Int) = year := by omega
    rw [last] at on
    omega
  · have back := daysOfYears_eq year (1970 - year).toNat
    have last : year + ((1970 - year).toNat : Int) = 1970 := by omega
    rw [last] at back
    omega

theorem marchStart_cycle (year cycle : Int) :
    marchStart (year + 400 * cycle) = marchStart year + 146097 * cycle := by
  unfold marchStart
  omega

/-! ### Days of a cycle -/

/-- The first of March of a year of a cycle. -/
def cycleStart (year : Nat) : Nat := 365 * year + year / 4 - year / 100 + year / 400

theorem cycleStart_cast (year : Nat) : (cycleStart year : Int) = marchStart year := by
  unfold cycleStart marchStart
  omega

theorem yearOfCycle_mono {a b : Nat} (le : a ≤ b) : yearOfCycle a ≤ yearOfCycle b := by
  have fourYears : a - a / 1460 ≤ b - b / 1460 := by omega
  have centuries : a / 36524 - a / 146096 ≤ b / 36524 - b / 146096 := by omega
  unfold yearOfCycle
  apply Nat.div_le_div_right
  omega

theorem yearOfCycle_turns : ∀ year < 400,
    yearOfCycle (cycleStart year) = year ∧ yearOfCycle (cycleStart (year + 1) - 1) = year := by
  decide +kernel

theorem yearOfCycle_lt {day : Nat} (lt : day < 146097) : yearOfCycle day < 400 := by
  unfold yearOfCycle
  omega

/-- The quotient that gives the year grows with the day. It is right on the first and on the last day of
every year, so it is right on the days between. -/
theorem cycleStart_le {day : Nat} (lt : day < 146097) : cycleStart (yearOfCycle day) ≤ day := by
  by_contra early
  have year := yearOfCycle_lt lt
  generalize found : yearOfCycle day = y at early year
  cases y with
  | zero => exact early (Nat.zero_le _)
  | succ y =>
    have eve := (yearOfCycle_turns y (by omega)).2
    have before := yearOfCycle_mono (Nat.le_sub_one_of_lt (Nat.lt_of_not_le early))
    omega

theorem lt_cycleStart {day : Nat} (lt : day < 146097) :
    day < cycleStart (yearOfCycle day + 1) := by
  by_contra late
  rcases Nat.lt_or_ge (yearOfCycle day + 1) 400 with another | last
  · have first := (yearOfCycle_turns _ another).1
    have after := yearOfCycle_mono (Nat.le_of_not_lt late)
    omega
  · have year := yearOfCycle_lt lt
    have all : yearOfCycle day + 1 = 400 := by omega
    have whole : cycleStart 400 = 146097 := rfl
    rw [all, whole] at late
    exact late lt

theorem dayOfYear_eq {day : Nat} (lt : day < 146097) :
    dayOfYear day = day - cycleStart (yearOfCycle day) := by
  have year := yearOfCycle_lt lt
  unfold dayOfYear cycleStart
  generalize yearOfCycle day = y at year ⊢
  simp only
  omega

/-! ### The date of a day -/

/-- The date of a day of a year that is counted from March. -/
def ofMarch (year : Int) (day : Nat) : Date :=
  let month := (5 * day + 2) / 153
  { year := if month < 10 then year else year + 1
    month := if month < 10 then month + 3 else month - 9
    day := day - sinceMarch month + 1 }

/-- Every day belongs to a year that is counted from March. -/
theorem exists_march (n : Int) : ∃ year day, ofDayNumber n = ofMarch year day ∧
    marchStart year + day = n + epochOffset ∧ n + epochOffset < marchStart (year + 1) := by
  have lt : ((n + epochOffset) % 146097).toNat < 146097 := by omega
  have first := cycleStart_le lt
  have last := lt_cycleStart lt
  have inYear := dayOfYear_eq lt
  refine ⟨_, _, rfl, ?_⟩
  generalize yearOfCycle ((n + epochOffset) % 146097).toNat = y at first last inYear ⊢
  have here := marchStart_cycle y ((n + epochOffset) / 146097)
  have next := marchStart_cycle (y + 1) ((n + epochOffset) / 146097)
  have castHere := cycleStart_cast y
  have castNext := cycleStart_cast (y + 1)
  rw [Int.natCast_succ] at castNext
  rw [inYear, here, Int.add_right_comm (y : Int), next]
  constructor
  · omega
  · omega

/-- A day of a month makes a date, whose number is counted from the first of the month. -/
theorem mk_counts (year : Int) (before rest : Nat) {n : Int} (le : before < 12)
    (lt : rest < monthLength year (before + 1))
    (number : yearStart year + daysOfMonths year before + rest = n) :
    IsValid ⟨year, before + 1, rest + 1⟩ ∧ dayNumber ⟨year, before + 1, rest + 1⟩ = n := by
  refine ⟨⟨Nat.succ_pos before, le, Nat.succ_pos rest, lt⟩, ?_⟩
  unfold dayNumber
  rw [Int.natCast_succ, Int.add_sub_cancel, Nat.add_sub_cancel, number]

theorem ofMarch_counts (year : Int) (day : Nat)
    (lt : marchStart year + day < marchStart (year + 1)) :
    (ofMarch year day).IsValid ∧
      (ofMarch year day).dayNumber = marchStart year + day - epochOffset := by
  have leapNext := leapDays_eq (year + 1)
  have startNext := yearStart_eq (year + 1)
  rw [Int.add_sub_cancel] at leapNext startNext
  have single : leapDays (year + 1) ≤ 1 := by
    unfold leapDays
    split <;> decide
  unfold ofMarch
  generalize found : (5 * day + 2) / 153 = k
  have le : sinceMarch k ≤ day := by
    unfold sinceMarch
    omega
  have inMonth : day < sinceMarch (k + 1) := by
    unfold sinceMarch
    omega
  -- January and February belong to the year after the one in which they are counted
  obtain fromMarch | rfl | rfl : k < 10 ∨ k = 10 ∨ k = 11 := by omega
  · have length := sinceMarch_succ year fromMarch
    have before := daysOfMonths_fromMarch year fromMarch.le
    have leap := leapDays_eq year
    have start := yearStart_eq year
    have inside : day - sinceMarch k < monthLength year (k + 3) := by omega
    simp only [if_pos fromMarch]
    exact mk_counts year (k + 2) (day - sinceMarch k) (by omega) inside (by omega)
  · have january : sinceMarch 10 = 306 := rfl
    have february : sinceMarch (10 + 1) = 337 := rfl
    have length : monthLength (year + 1) 1 = 31 := rfl
    have before : daysOfMonths (year + 1) 0 = 0 := rfl
    have inside : day - sinceMarch 10 < monthLength (year + 1) 1 := by omega
    have late : ¬10 < 10 := by decide
    simp only [if_neg late]
    exact mk_counts (year + 1) 0 (day - sinceMarch 10) (by decide) inside (by omega)
  · have february : sinceMarch 11 = 337 := rfl
    have length := monthLength_february (year + 1)
    have before : daysOfMonths (year + 1) 1 = 31 := rfl
    have inside : day - sinceMarch 11 < monthLength (year + 1) 2 := by omega
    have late : ¬11 < 10 := by decide
    simp only [if_neg late]
    exact mk_counts (year + 1) 1 (day - sinceMarch 11) (by decide) inside (by omega)

theorem ofDayNumber_counts (n : Int) : (ofDayNumber n).IsValid ∧ (ofDayNumber n).dayNumber = n := by
  obtain ⟨year, day, date, here, next⟩ := exists_march n
  obtain ⟨valid, number⟩ := ofMarch_counts year day (by omega)
  rw [date]
  refine ⟨valid, ?_⟩
  rw [number]
  omega

/-- The last day before the year 0, and the leap day of a year that ends a cycle. -/
example : ofDayNumber (-719529) = ⟨-1, 12, 31⟩ ∧ ofDayNumber 11016 = ⟨2000, 2, 29⟩ := by decide

end Date

end CommandDeck
