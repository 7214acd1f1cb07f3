import Winnow.Calendar.Date
import Winnow.Fault

/-!
# Moments

A moment is a date with a time of day to the microsecond and, if its zone is known, an offset from
UTC.  An offset may be out of range, for it can come from a free-form text; whatever needs the
instant of such a moment fails.

* `Moment.instant`: microseconds on the UTC time line; a moment without an offset is taken as UTC.
* `Moment.toUtc`: the same instant with offset zero, unless it leaves the calendar.
* `Moment.isoText`, `Date.isoText`: the ISO 8601 texts.
-/

namespace Winnow

/-- A time of day to the microsecond. -/
structure TimeOfDay where
  hour : Nat
  minute : Nat
  second : Nat
  microsecond : Nat
  valid : hour < 24 ∧ minute < 60 ∧ second < 60 ∧ microsecond < 1000000
  deriving DecidableEq

/-- The number of microseconds in a day. -/
def microsPerDay : Nat := 86400000000

namespace TimeOfDay

/-- Midnight at the beginning of a day. -/
def midnight : TimeOfDay := ⟨0, 0, 0, 0, by decide⟩

instance : Inhabited TimeOfDay := ⟨midnight⟩

/-- The time of day with given parts, if it exists. -/
def of? (hour minute second microsecond : Nat) : Option TimeOfDay :=
  if h : hour < 24 ∧ minute < 60 ∧ second < 60 ∧ microsecond < 1000000 then
    some ⟨hour, minute, second, microsecond, h⟩
  else none

/-- The microseconds since midnight. -/
def micros (t : TimeOfDay) : Nat :=
  ((t.hour * 60 + t.minute) * 60 + t.second) * 1000000 + t.microsecond

/-- The time of day some microseconds after a midnight. -/
def ofMicros (n : Nat) : TimeOfDay :=
  ⟨n / 3600000000 % 24, n / 60000000 % 60, n / 1000000 % 60, n % 1000000, by omega⟩

end TimeOfDay

/-- A date and a time of day, with an offset from UTC in microseconds if its zone is known. -/
structure Moment where
  date : Date
  time : TimeOfDay
  offset : Option Int
  deriving DecidableEq, Inhabited

/-- A number in decimal digits, with zeros in front up to a width. -/
def paddedDigits (width n : Nat) : List Char :=
  let ds := Nat.toDigits 10 n
  List.replicate (width - ds.length) '0' ++ ds

namespace Date

/-- The characters of a date in ISO 8601. -/
def isoChars (d : Date) : List Char :=
  paddedDigits 4 d.year ++ ['-'] ++ paddedDigits 2 d.month ++ ['-'] ++ paddedDigits 2 d.day

/-- The ISO 8601 text of a date. -/
def isoText (d : Date) : Text := Text.ofChars d.isoChars

end Date

/-- Whether an offset from UTC is less than a day. -/
def offsetInRange (offset : Int) : Bool := offset.natAbs < microsPerDay

/-- The characters of an offset: hours and minutes, then seconds and microseconds where they are not
zero. -/
def offsetChars (offset : Int) : List Char :=
  let n := offset.natAbs
  let seconds := n / 1000000 % 60
  let micros := n % 1000000
  [if offset < 0 then '-' else '+'] ++ paddedDigits 2 (n / 3600000000) ++ [':'] ++
    paddedDigits 2 (n / 60000000 % 60) ++
    (if seconds = 0 ∧ micros = 0 then [] else ':' :: paddedDigits 2 seconds) ++
    (if micros = 0 then [] else '.' :: paddedDigits 6 micros)

namespace TimeOfDay

/-- The characters of a time of day down to the second. -/
def secondChars (t : TimeOfDay) : List Char :=
  paddedDigits 2 t.hour ++ [':'] ++ paddedDigits 2 t.minute ++ [':'] ++ paddedDigits 2 t.second

/-- The characters of a time of day; the fraction only if there is one. -/
def isoChars (t : TimeOfDay) : List Char :=
  t.secondChars ++ if t.microsecond = 0 then [] else '.' :: paddedDigits 6 t.microsecond

end TimeOfDay

namespace Moment

/-- The offset that counts: UTC for a moment without one. -/
def usableOffset (m : Moment) : Except Fault Int :=
  let offset := m.offset.getD 0
  if offsetInRange offset then .ok offset else .error .offsetTooLarge

/-- The microseconds of the written date and time since the day before 0001-01-01. -/
def written (m : Moment) : Int := m.date.dayNumber * microsPerDay + m.time.micros

/-- The place of a moment on the UTC time line, whatever its offset. -/
def instantOf (m : Moment) : Int := m.written - m.offset.getD 0

/-- The place of a moment on the UTC time line. -/
def instant (m : Moment) : Except Fault Int := do
  return m.written - (← m.usableOffset)

/-- The moment of UTC at a place on the time line, if it is in the calendar. -/
def ofInstant? (instant : Int) : Option Moment := do
  let date ← Date.ofDayNumber? (instant / microsPerDay)
  return ⟨date, TimeOfDay.ofMicros (instant % microsPerDay).toNat, some 0⟩

/-- The same instant in UTC. -/
def toUtc (m : Moment) : Except Fault Moment := do
  match ofInstant? (← m.instant) with
  | some u => .ok u
  | none => .error .outOfRange

/-- The moment with UTC as its zone if it has none. -/
def assumeUtc (m : Moment) : Moment := { m with offset := some (m.offset.getD 0) }

/-- The midnight of UTC at which a date begins. -/
def ofDate (d : Date) : Moment := ⟨d, TimeOfDay.midnight, some 0⟩

/-- The text of a moment by date, time of day and zone, with a given character before the time. -/
def textWith (separator : Char) (m : Moment) : Except Fault Text := do
  let zone ← match m.offset with
    | none => pure []
    | some offset =>
      if offsetInRange offset then pure (offsetChars offset) else .error .offsetTooLarge
  return Text.ofChars (m.date.isoChars ++ [separator] ++ m.time.isoChars ++ zone)

/-- The ISO 8601 text of a moment. -/
def isoText (m : Moment) : Except Fault Text := m.textWith 'T'

/-- Moments are equal if both have offsets and one instant, or neither has an offset and they are
written alike. -/
def equals (a b : Moment) : Bool :=
  a.offset.isSome == b.offset.isSome && a.instantOf == b.instantOf

end Moment

end Winnow
