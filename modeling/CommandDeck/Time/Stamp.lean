import CommandDeck.Number.Layout
import CommandDeck.Time.Calendar

/-!
# Stamps

An instant is a number of milliseconds since the beginning of 1970, without leap seconds. Its stamp
is the date and the time of day in universal time. A year of more than four digits, or before the
year 0, has a sign.
-/

namespace CommandDeck.Stamp

def millisPerDay : Int := 86400000

/-- The digits of `n` with zeros before them up to the given width. -/
def padded (width n : Nat) : List Char :=
  let ds := NumberLayout.digits n
  List.replicate (width - ds.length) '0' ++ ds

def yearText (year : Int) : List Char :=
  if 0 ≤ year ∧ year ≤ 9999 then padded 4 year.natAbs
  else (if year < 0 then '-' else '+') :: padded 4 year.natAbs

def dateTime (millis : Int) : List Char :=
  let date := Date.ofDayNumber (millis / millisPerDay)
  let seconds := ((millis % millisPerDay) / 1000).toNat
  yearText date.year ++ '-' :: padded 2 date.month ++ '-' :: padded 2 date.day ++
    'T' :: padded 2 (seconds / 3600) ++ ':' :: padded 2 (seconds / 60 % 60) ++
    ':' :: padded 2 (seconds % 60)

/-- The stamp of a payload: always with milliseconds. -/
def withMillis (millis : Int) : String :=
  String.ofList (dateTime millis ++ '.' :: padded 3 (millis % 1000).toNat ++ ['Z'])

/-- The stamp of a manifest: milliseconds only where there are any. -/
def withOffset (millis : Int) : String :=
  let fraction := (millis % 1000).toNat
  String.ofList (dateTime millis ++ (if fraction = 0 then [] else '.' :: padded 3 fraction) ++
    ['+', '0', '0', ':', '0', '0'])

def ofJournal (millis : Int) : String :=
  String.ofList ((dateTime millis).map fun c => if c = 'T' then ' ' else c)

end CommandDeck.Stamp
