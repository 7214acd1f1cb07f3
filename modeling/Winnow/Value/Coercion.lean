import Winnow.Binary64.Reader
import Winnow.Calendar.Freeform
import Winnow.Value.Literal

/-!
# Coercions

Filters compare a record's value with their own after coercing both to one type.  What cannot be
coerced becomes no number, or no moment, so that every comparison with it fails.

* `Value.toNumber`: truth values count as 0 and 1, a text is read as a number, blank ones as zero,
  and a date or a moment counts its milliseconds since 1970.
* `Value.toMoment`: a date is its first midnight in UTC, a text is read as a calendar date, and a
  number counts milliseconds since 1970.
* `Value.toEpochMillis`: the milliseconds since 1970 of the moment of a value.
* `Value.toText`: integral numbers are written without a fraction, lists joined with commas.

A coercion fails, rather than giving no result, at an integer beyond the binary64 numbers, at an
offset from UTC of a day or more, at an integer with too many digits and at a time of day with too
many digits.  Parts that a written date
leaves out are those of the present day, which is a parameter throughout.
-/

namespace Winnow

/-- The place of 1970-01-01 on the UTC time line. -/
def epoch : Int := 719163 * microsPerDay

namespace Moment

/-- The milliseconds from 1970 to an instant: first rounded to a number of seconds, then to
milliseconds. -/
def epochMillisOfInstant (instant : Int) : Binary64 :=
  let micros := instant - epoch
  (Binary64.ofRatio (micros < 0) micros.natAbs 1000000).scale 1000 1

/-- The milliseconds from 1970 to a moment. -/
def epochMillis (m : Moment) : Except Fault Binary64 := do
  return epochMillisOfInstant (← m.instant)

/-- The moment of UTC some microseconds after 1970, if it is in the calendar. -/
def ofEpochMicros? (micros : Int) : Option Moment := ofInstant? (epoch + micros)

/-- The moment of a text with blanks around it; a blank text has none. -/
def ofWritten (today : Date) (t : Text) : Except Fault (Option Moment) :=
  if t.strip.isEmpty then .ok none else ofText today t.strip

end Moment

namespace Binary64

/-- The number nearest to an integer, which must not be infinite. -/
def ofInt (n : Int) : Except Fault Binary64 := (ofInt? n).elim (.error .outOfRange) .ok

/-- A finite number of seconds as microseconds: the fraction of a second is multiplied and rounded
to a number, and then rounded to an integer, half to even. -/
def secondsToMicros? (x : Binary64) : Option Int := do
  let u ← x.units?
  let whole := Int.tdiv u unitsInOne
  let fraction := (u - whole * unitsInOne).natAbs
  let scaled := roundRatio (fraction * 1000000) unitsInOne
  let micros : Int := divHalfEven (rankUnits scaled) unitsInOne
  return whole * 1000000 + (if u < 0 then -micros else micros)

/-- The moment of UTC that many milliseconds after 1970, if it is in the calendar. -/
def epochMoment? (millis : Binary64) : Option Moment := do
  Moment.ofEpochMicros? (← (millis.scale 1 1000).secondsToMicros?)

end Binary64

namespace Value

/-- The moment of a value. -/
def toMoment (today : Date) : Value → Except Fault (Option Moment)
  | .moment m => .ok (some m.assumeUtc)
  | .date d => .ok (some (Moment.ofDate d))
  | .text t => Moment.ofWritten today t
  | .int n => do
    let _ ← Binary64.ofInt n
    let seconds := Binary64.ofRatio (n < 0) n.natAbs 1000
    return seconds.secondsToMicros?.bind Moment.ofEpochMicros?
  | .float x => .ok (if x.isFinite then x.epochMoment? else none)
  | _ => .ok none

/-- The milliseconds from 1970 to the moment of a value, no number without one. -/
def toEpochMillis (today : Date) (v : Value) : Except Fault Binary64 := do
  match ← v.toMoment today with
  | some m => m.epochMillis
  | none => return .nan

/-- The number of a value, no number where it has none. -/
def toNumber (today : Date) : Value → Except Fault Binary64
  | .bool b => .ok (if b then Binary64.one else Binary64.zero)
  | .int n => Binary64.ofInt n
  | .float x => .ok x
  | .text t =>
    .ok (if t.strip.isEmpty then Binary64.zero else (Binary64.ofText? t.strip).getD .nan)
  | .date d => toEpochMillis today (.date d)
  | .moment m => toEpochMillis today (.moment m)
  | _ => .ok .nan

mutual

/-- The text of a value. -/
def toText : Value → Except Fault Text
  | .null => .ok []
  | .bool b => .ok (if b then "true" else "false")
  | .float x =>
    match x.toInt? with
    | some n => Numeral.ofInt n
    | none => .ok x.text
  | .list items => do return List.intercalate ("," : Text) (← itemTexts items)
  | .tuple items => do return List.intercalate ("," : Text) (← itemTexts items)
  | .moment m => m.isoText
  | .int n => Numeral.ofInt n
  | .text t => .ok t
  | .date d => .ok d.isoText
  | .object entries => literal (.object entries)

/-- The texts of the items of a list. -/
def itemTexts : List Value → Except Fault (List Text)
  | [] => .ok []
  | v :: vs => do return (← toText v) :: (← itemTexts vs)

end

end Value

end Winnow
