/-!
The Gregorian calendar, continued to all years before and after its use. A day is counted from 1970-01-01,
which is day 0; `Date.day` counts the day of a date, and `Date.ofDay` finds the date of a day.
-/

namespace PushDispatch.Calendar

/-- A year, a month from 1 to 12 and a day of the month from 1. The year before year 1 is year 0. -/
structure Date where
  year : Int
  month : Nat
  dayOfMonth : Nat
deriving DecidableEq

/-- Every fourth year is a leap year, but of the centuries only every fourth. -/
def isLeap (year : Int) : Bool := year % 4 == 0 && (year % 100 != 0 || year % 400 == 0)

/-- The lengths of the months. -/
def monthLengths (leap : Bool) : List Nat :=
  [31, if leap then 29 else 28, 31, 30, 31, 30, 31, 31, 30, 31, 30, 31]

namespace Date

/-- Whether the month is one of the twelve and has the day. -/
def isValid (d : Date) : Bool :=
  1 ≤ d.month && 1 ≤ d.dayOfMonth && d.dayOfMonth ≤ ((monthLengths (isLeap d.year))[d.month - 1]?).getD 0

/-- The number of days from 0001-01-01 to the first day of a year. -/
def daysBeforeYear (year : Int) : Int :=
  let past := year - 1
  365 * past + past / 4 - past / 100 + past / 400

/-- The day number of 1970-01-01 when 0001-01-01 is day 0. -/
def daysToEpoch : Int := 719162

/-- The number of days in months with the given lengths. -/
def daysIn : List Nat → Nat
  | [] => 0
  | length :: lengths => length + daysIn lengths

/-- The day of a date. -/
def day (d : Date) : Int :=
  daysBeforeYear d.year + (daysIn ((monthLengths (isLeap d.year)).take (d.month - 1)) : Nat) + d.dayOfMonth - 1 - daysToEpoch

/-- Finds the month and the day of the month of a day of the year by going through the lengths of the months;
`month` is the number of the first of them. -/
def findMonth (month dayOfYear : Nat) : List Nat → Nat × Nat
  | [] => (month, dayOfYear + 1)
  | length :: lengths =>
    if dayOfYear < length then (month, dayOfYear + 1) else findMonth (month + 1) (dayOfYear - length) lengths

/-- The date of a day. A cycle of 400 years has 146097 days; the last century of a cycle and the last year of
four years may be a day longer than the others. -/
def ofDay (day : Int) : Date :=
  let n := day + daysToEpoch
  let cycle := n / 146097
  let inCycle := (n % 146097).toNat
  let century := min (inCycle / 36524) 3
  let inCentury := inCycle - century * 36524
  let four := inCentury / 1461
  let inFour := inCentury % 1461
  let year := min (inFour / 365) 3
  let y : Int := 400 * cycle + (100 * century + 4 * four + year : Nat) + 1
  let (month, dayOfMonth) := findMonth 1 (inFour - year * 365) (monthLengths (isLeap y))
  ⟨y, month, dayOfMonth⟩

end Date

end PushDispatch.Calendar
