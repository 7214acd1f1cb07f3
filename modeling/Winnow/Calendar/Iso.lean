import Winnow.Calendar.Moment
import Winnow.Numeral

/-!
# Reading ISO 8601 texts

* `Moment.ofIso?` reads dates and times of day in the forms of the standard: calendar dates with or
  without hyphens (a year, or a year and a month, may stand alone), week dates and ordinal dates;
  after any one character a time of day with or without colons, with a fraction after a point or a
  comma; midnight at the end of a day as hour 24; and a zone.
* `Moment.ofIsoText?` reads only what `Moment.isoText` writes, offsets down to the microsecond
  included.
-/

namespace Winnow

/-- The value of a number of exactly `width` digits and the characters after it. -/
def takeDigits (width : Nat) (cs : List Char) : Option (Nat × List Char) :=
  let ds := cs.take width
  if ds.length = width ∧ ds.all Char.isDigit then
    some (Numeral.valueOf (ds.map (·.toNat - 0x30)), cs.drop width)
  else none

/-- A year, a month and a day as they are written, and the characters after them. -/
abbrev WrittenDate := (Nat × Nat × Nat) × List Char

namespace Date

/-- A date by year, month and day.  The month and the day may be left out, but not the day alone
where there are no hyphens. -/
def takeCalendar (cs : List Char) : Option WrittenDate := do
  let (year, afterYear) ← takeDigits 4 cs
  if afterYear.isEmpty then return ((year, 1, 1), [])
  let hyphens := afterYear.head? == some '-'
  let atMonth := if hyphens then afterYear.drop 1 else afterYear
  let (month, afterMonth) ← takeDigits 2 atMonth
  if afterMonth.isEmpty then
    if hyphens then return ((year, month, 1), []) else none
  if hyphens && afterMonth.head? != some '-' then none
  let atDay := if hyphens then afterMonth.drop 1 else afterMonth
  let (day, rest) ← takeDigits 2 atDay
  return ((year, month, day), rest)

/-- The date of a day in a week of a year; the first week holds the fourth of January. -/
def ofWeek? (year week day : Nat) : Option Date := do
  if ¬(0 < week ∧ week < 54 ∧ 0 < day ∧ day < 8) then none
  let fourth ← of? year 1 4
  ofDayNumber? ((fourth.dayNumber : Int) - fourth.weekday + (week - 1) * 7 + (day - 1))

/-- A date by year, week and day of the week, or by year and day of the year. -/
def takeWeekOrOrdinal (cs : List Char) : Option (Date × List Char) := do
  let (year, afterYear) ← takeDigits 4 cs
  let hyphens := afterYear.head? == some '-'
  let body := if hyphens then afterYear.drop 1 else afterYear
  if body.head? == some 'W' then
    let (week, afterWeek) ← takeDigits 2 (body.drop 1)
    if afterWeek.isEmpty then return (← ofWeek? year week 1, [])
    if (afterWeek.head? == some '-') != hyphens then none
    let (day, rest) ← takeDigits 1 (if hyphens then afterWeek.drop 1 else afterWeek)
    return (← ofWeek? year week day, rest)
  else
    let (day, rest) ← takeDigits 3 body
    let first ← of? year 1 1
    if ¬(1 ≤ day ∧ day ≤ 365 + (if isLeapYear year then 1 else 0)) then none
    return (← first.addDays? ((day : Int) - 1), rest)

/-- The date at the beginning of a text in one of the forms of the standard, its parts not yet
checked to make a date of the calendar. -/
def takeIso (cs : List Char) : Option WrittenDate :=
  match takeCalendar cs with
  | some r => some r
  | none => (takeWeekOrOrdinal cs).map fun r => ((r.1.year, r.1.month, r.1.day), r.2)

end Date

/-- A microsecond is the unit of offsets; this many make a second. -/
def microsPerSecond : Int := 1000000

/-- The offset that the whole of a text denotes: a letter for UTC, or a sign, hours and perhaps
minutes. -/
def isoZone? (cs : List Char) : Option Int := do
  if cs = ['Z'] ∨ cs = ['z'] then return 0
  let sign : Int ← match cs.head? with
    | some '-' => some (-1)
    | some '+' => some 1
    | _ => none
  let (hours, rest) ← takeDigits 2 (cs.drop 1)
  let (minutes, rest) ←
    if rest.isEmpty then some (0, [])
    else takeDigits 2 (if rest.head? == some ':' then rest.drop 1 else rest)
  if !rest.isEmpty ∨ 59 < minutes ∨ 23 < hours then none
  return sign * ((hours * 60 + minutes) * 60 : Nat) * microsPerSecond

/-- The parts of a time of day. -/
inductive ClockPart where
  | hour
  | minute
  | second
  | fraction
  deriving DecidableEq

/-- Microseconds from the digits of a fraction of a second; digits after the sixth are dropped. -/
def fractionMicros (digits : List Char) : Nat :=
  Numeral.valueOf ((digits ++ List.replicate 6 '0').take 6 |>.map (·.toNat - 0x30))

/-- The given parts of a time of day and then perhaps a zone, down to the end of the text.  Parts
may be missing from the end; `colons` tells whether a colon came before the minutes. -/
def isoClock? (colons : Bool) : List ClockPart → List Char → Option (List Nat × Option Int)
  | _, [] => some ([], none)
  | parts, c :: cs =>
    if c = '-' ∨ c = '+' ∨ c = 'Z' ∨ c = 'z' then
      (isoZone? (c :: cs)).map fun zone => ([], some zone)
    else
      match parts with
      | [] => none
      | .fraction :: more =>
        if c = '.' ∨ c = ',' then
          let digits := cs.takeWhile Char.isDigit
          if digits.isEmpty then none
          else do
            let (ns, zone) ← isoClock? colons more (cs.dropWhile Char.isDigit)
            return (fractionMicros digits :: ns, zone)
        else none
      | part :: more => do
        let colonsNow := colons || (part = .minute && c = ':')
        if colons && part = .second && c != ':' then none
        let body := if c = ':' && part != .hour && colonsNow then cs else c :: cs
        let (n, rest) ← takeDigits 2 body
        let (ns, zone) ← isoClock? colonsNow more rest
        return (n :: ns, zone)

namespace Moment

/-- The moment of an ISO 8601 text; without an offset if the text has no zone. -/
def ofIso? (cs : List Char) : Option Moment := do
  if cs.any fun c => 0x80 ≤ c.toNat then none
  let ((year, month, day), afterDate) ← Date.takeIso cs
  let date ← Date.of? year month day
  match afterDate with
  | [] => return ⟨date, TimeOfDay.midnight, none⟩
  | _ :: clock =>
    if clock.length < 2 then none
    let (parts, zone) ← isoClock? false [.hour, .minute, .second, .fraction] clock
    let part (i : Nat) : Nat := parts.getD i 0
    if part 0 = 24 then
      if part 1 = 0 ∧ part 2 = 0 ∧ part 3 = 0 then
        return ⟨← date.addDays? 1, TimeOfDay.midnight, zone⟩
      else none
    else return ⟨date, ← TimeOfDay.of? (part 0) (part 1) (part 2) (part 3), zone⟩

end Moment

/-- The characters after a given first one. -/
def takeMark (mark : Char) : List Char → Option (List Char)
  | [] => none
  | c :: cs => if c = mark then some cs else none

/-- Hours and minutes, and seconds and a fraction if they are there. -/
def takeClock (cs : List Char) : Option ((Nat × Nat × Nat × Nat) × List Char) := do
  let (hour, cs) ← takeDigits 2 cs
  let (minute, cs) ← takeDigits 2 (← takeMark ':' cs)
  match cs with
  | ':' :: cs =>
    let (second, cs) ← takeDigits 2 cs
    match cs with
    | '.' :: cs =>
      let digits := cs.takeWhile Char.isDigit
      return ((hour, minute, second, fractionMicros digits), cs.dropWhile Char.isDigit)
    | _ => return ((hour, minute, second, 0), cs)
  | _ => return ((hour, minute, 0, 0), cs)

/-- The offset that the whole of a text writes out, and none for the empty text. -/
def writtenOffset? (cs : List Char) : Option (Option Int) := do
  let (sign, digits) ← match cs with
    | [] => return none
    | ['Z'] => return some 0
    | '-' :: cs => some ((-1 : Int), cs)
    | '+' :: cs => some ((1 : Int), cs)
    | _ => none
  let ((hour, minute, second, micros), rest) ← takeClock digits
  if !rest.isEmpty then none
  return some (sign * ((((hour * 60 + minute) * 60 + second) * 1000000 + micros : Nat) : Int))

/-- The year, month and day of a date written with hyphens, and the characters after it. -/
def takeIsoDate (cs : List Char) : Option (Date × List Char) := do
  let (year, cs) ← takeDigits 4 cs
  let (month, cs) ← takeDigits 2 (← takeMark '-' cs)
  let (day, cs) ← takeDigits 2 (← takeMark '-' cs)
  return (← Date.of? year month day, cs)

/-- The date that a text writes out. -/
def Date.ofIsoText? (t : Text) : Option Date := do
  let (date, rest) ← takeIsoDate t.chars
  if rest.isEmpty then some date else none

/-- The moment that a text writes out. -/
def Moment.ofIsoText? (t : Text) : Option Moment := do
  let (date, rest) ← takeIsoDate t.chars
  if rest.isEmpty then return ⟨date, TimeOfDay.midnight, none⟩
  let ((hour, minute, second, micros), zone) ← takeClock (rest.drop 1)
  return ⟨date, ← TimeOfDay.of? hour minute second micros, ← writtenOffset? zone⟩

end Winnow
