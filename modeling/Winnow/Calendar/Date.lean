/-!
# Calendar dates

The proleptic Gregorian calendar from year 1 to year 9999.

* `Date`: a year, a month and a day that exist.
* `Date.dayNumber`, `Date.ofDayNumber?`: dates as numbers of days, 0001-01-01 being day 1.
* `Date.weekday`: 0 for Monday to 6 for Sunday.
-/

namespace Winnow

/-- Whether a year has a 29th of February. -/
def isLeapYear (year : Nat) : Bool :=
  year % 4 = 0 && (year % 100 ≠ 0 || year % 400 = 0)

/-- The number of days of a month. -/
def daysInMonth (year month : Nat) : Nat :=
  match month with
  | 2 => if isLeapYear year then 29 else 28
  | 4 | 6 | 9 | 11 => 30
  | _ => 31

/-- The number of days before the first of January. -/
def daysBeforeYear (year : Nat) : Nat :=
  let past := year - 1
  past * 365 + past / 4 - past / 100 + past / 400

/-- The number of days of a year before the first of a month. -/
def daysBeforeMonth (year : Nat) : Nat → Nat
  | 0 | 1 => 0
  | month + 2 => daysBeforeMonth year (month + 1) + daysInMonth year (month + 1)

/-- Whether a year, a month and a day make a date of the calendar. -/
def isDate (year month day : Nat) : Bool :=
  1 ≤ year && year ≤ 9999 && 1 ≤ month && month ≤ 12 &&
    1 ≤ day && day ≤ daysInMonth year month

/-- A date of the calendar. -/
structure Date where
  year : Nat
  month : Nat
  day : Nat
  valid : isDate year month day = true
  deriving DecidableEq

namespace Date

instance : Inhabited Date := ⟨⟨1, 1, 1, by decide⟩⟩

/-- The date of a year, a month and a day, if it exists. -/
def of? (year month day : Nat) : Option Date :=
  if h : isDate year month day = true then some ⟨year, month, day, h⟩ else none

/-- The number of a date, counted from 0001-01-01 as day 1. -/
def dayNumber (d : Date) : Nat :=
  daysBeforeYear d.year + daysBeforeMonth d.year d.month + d.day

/-- The year that a day number falls into: a first guess by the mean length of a year, moved by one
where the guess misses. -/
def yearOfDay (n : Nat) : Nat :=
  let guess := (n - 1) * 400 / 146097 + 1
  if n ≤ daysBeforeYear guess then guess - 1
  else if daysBeforeYear (guess + 1) < n then guess + 1
  else guess

/-- The month of a day of a year, the first of January being day 1. -/
def monthOfDay (year day : Nat) : Nat :=
  match (List.range 12).find? fun m => day ≤ daysBeforeMonth year (m + 2) with
  | some m => m + 1
  | none => 12

/-- The date with a day number, if it is in the calendar. -/
def ofDayNumber? (n : Int) : Option Date :=
  if n < 1 then none
  else
    let year := yearOfDay n.toNat
    let day := n.toNat - daysBeforeYear year
    let month := monthOfDay year day
    of? year month (day - daysBeforeMonth year month)

/-- The date a number of days later. -/
def addDays? (d : Date) (days : Int) : Option Date := ofDayNumber? (d.dayNumber + days)

/-- The day of the week, 0 for Monday. -/
def weekday (d : Date) : Nat := (d.dayNumber + 6) % 7

end Date

end Winnow
