import Repl.Text.Bytes

/-!
Points in time and their calendar form, in UTC and the proleptic Gregorian calendar. The calendar is
counted from March, so that a leap day is the last day of its year, and in eras of 400 years, which
all have the same number of days.
-/

namespace Repl.Log

structure Date where
  year : Int
  month : Nat
  day : Nat
  deriving DecidableEq, Repr

namespace Date

/-- The number of days in an era of 400 years. -/
def daysPerEra : Nat := 146097

/-- The days from 1 March of the year 0 to 1 January 1970. -/
def epochOffset : Int := 719468

/-- The year of an era that holds a day of the era, both counted from zero. -/
def yearOfEra (day : Nat) : Nat :=
  (day - day / 1460 + day / 36524 - day / 146096) / 365

def daysBeforeYear (year : Nat) : Nat :=
  365 * year + year / 4 - year / 100

-- Years and months are counted from March here, so that a leap day ends its year.
def daysBeforeMonth (month : Nat) : Nat :=
  (153 * month + 2) / 5

/-- The date that lies the given number of days after 1 January 1970. -/
def ofDays (days : Int) : Date :=
  let shifted := days + epochOffset
  let era := shifted.fdiv daysPerEra
  let dayOfEra := (shifted.fmod daysPerEra).toNat
  let year := yearOfEra dayOfEra
  let dayOfYear := dayOfEra - daysBeforeYear year
  let month := (5 * dayOfYear + 2) / 153
  { year := era * 400 + year + if month < 10 then 0 else 1
    month := if month < 10 then month + 3 else month - 9
    day := dayOfYear - daysBeforeMonth month + 1 }

/-- The number of days from 1 January 1970 to a date. -/
def toDays (d : Date) : Int :=
  let month := if d.month < 3 then d.month + 9 else d.month - 3
  let year := if d.month < 3 then d.year - 1 else d.year
  let era := year.fdiv 400
  let yearOfEra := (year.fmod 400).toNat
  era * daysPerEra + daysBeforeYear yearOfEra + daysBeforeMonth month + (d.day - 1 : Nat)
    - epochOffset

end Date

/-- A point in time, in milliseconds since the start of 1970. -/
structure Timestamp where
  milliseconds : Int
  deriving DecidableEq, Repr

namespace Timestamp

/-- The whole seconds since the start of 1970, truncated toward zero. -/
def seconds (t : Timestamp) : Int :=
  t.milliseconds.tdiv 1000

def date (t : Timestamp) : Date :=
  .ofDays (t.seconds.fdiv 86400)

def secondOfDay (t : Timestamp) : Nat :=
  (t.seconds.fmod 86400).toNat

/-- The point in time as `YYYY-MM-DD HH:MM:SS`. -/
def render (t : Timestamp) : Bytes :=
  let pair (n : Nat) := Text.decimalPadded 2 n
  let date := t.date
  let second := t.secondOfDay
  Text.decimalPadded 4 date.year.toNat ++ ascii "-" ++ pair date.month ++ ascii "-" ++
    pair date.day ++ ascii " " ++ pair (second / 3600) ++ ascii ":" ++ pair (second / 60 % 60) ++
    ascii ":" ++ pair (second % 60)

end Timestamp

end Repl.Log
