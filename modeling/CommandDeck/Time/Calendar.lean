/-!
# The Gregorian calendar

Days are counted from the first of January 1970. A day is turned into a year, a month and a day of
the month by the rules of the Gregorian calendar, carried on without end in both directions. The
years are counted from March, so that the leap day is the last of a year, and in cycles of 400 years,
which are 146097 days long.
-/

namespace CommandDeck

structure Date where
  year : Int
  month : Nat
  day : Nat
  deriving DecidableEq

namespace Date

/-- Days from the first of March of the year 0 to the first of January 1970. -/
def epochOffset : Int := 719468

/-- The year of a cycle to which a day of the cycle belongs. -/
def yearOfCycle (day : Nat) : Nat := (day - day / 1460 + day / 36524 - day / 146096) / 365

/-- The day of its year, counted from March, of a day of a cycle. -/
def dayOfYear (day : Nat) : Nat :=
  let year := yearOfCycle day
  day - (365 * year + year / 4 - year / 100)

def ofDayNumber (n : Int) : Date :=
  let shifted := n + epochOffset
  let cycle := shifted / 146097
  let day := (shifted % 146097).toNat
  let inYear := dayOfYear day
  let month := (5 * inYear + 2) / 153
  let year : Int := yearOfCycle day + 400 * cycle
  { year := if month < 10 then year else year + 1
    month := if month < 10 then month + 3 else month - 9
    day := inYear - (153 * month + 2) / 5 + 1 }

/-- Every fourth year has a leap day, but of the full centuries only every fourth. -/
def isLeapYear (year : Int) : Bool := year % 4 == 0 && (year % 100 != 0 || year % 400 == 0)

def monthLength (year : Int) (month : Nat) : Nat :=
  if month = 2 then if isLeapYear year then 29 else 28
  else if month = 4 ∨ month = 6 ∨ month = 9 ∨ month = 11 then 30
  else 31

end Date

end CommandDeck
