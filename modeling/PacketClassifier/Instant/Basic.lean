/-
Points in time and the calendar.

An instant is a number of seconds from the start of 1970 with a fraction in nanoseconds; a
leap second is the second before it with a fraction of one second or more. Days are
counted in the proleptic Gregorian calendar: `Calendar.days` counts them and
`Calendar.date` finds the date of a day.
-/
namespace PacketClassifier

/-- A point in time. -/
structure Instant where
  /-- Whole seconds since the start of 1970. -/
  seconds : Int
  /-- The fraction; a billion or more in a leap second. -/
  nanoseconds : Nat
  deriving DecidableEq, Repr, Inhabited

namespace Calendar

/-- Whether a year has 366 days. -/
def isLeap (year : Int) : Bool :=
  year.emod 4 == 0 && (year.emod 100 != 0 || year.emod 400 == 0)

/-- The number of days in a month. -/
def monthLength (year : Int) (month : Nat) : Nat :=
  if month = 2 then (if isLeap year then 29 else 28)
  else if month = 4 ∨ month = 6 ∨ month = 9 ∨ month = 11 then 30
  else 31

/-- The day of a date, counted from the start of 1970. Years are taken to start in March,
so that the leap day is the last one. -/
def days (year : Int) (month day : Nat) : Int :=
  let y := if month ≤ 2 then year - 1 else year
  let era := y.ediv 400
  let yearOfEra := y.emod 400
  let dayOfYear : Int := ((153 * ((month + 9) % 12) + 2) / 5 + day - 1 : Nat)
  era * 146097 + (yearOfEra * 365 + yearOfEra.ediv 4 - yearOfEra.ediv 100 + dayOfYear)
    - 719468

/-- Year, month and day of a day counted from the start of 1970. -/
def date (days : Int) : Int × Nat × Nat :=
  let z := days + 719468
  let era := z.ediv 146097
  let dayOfEra := (z.emod 146097).toNat
  let yearOfEra := (dayOfEra - dayOfEra / 1460 + dayOfEra / 36524 - dayOfEra / 146096) / 365
  let dayOfYear := dayOfEra - (365 * yearOfEra + yearOfEra / 4 - yearOfEra / 100)
  let m := (5 * dayOfYear + 2) / 153
  let day := dayOfYear - (153 * m + 2) / 5 + 1
  let month := if m < 10 then m + 3 else m - 9
  (era * 400 + yearOfEra + (if month ≤ 2 then 1 else 0), month, day)

/-- The first day that an instant may have: the start of the year -262143. -/
def firstDay : Int := days (-262143) 1 1

/-- The last day that an instant may have: the end of the year 262142. -/
def lastDay : Int := days 262142 12 31

end Calendar

end PacketClassifier
