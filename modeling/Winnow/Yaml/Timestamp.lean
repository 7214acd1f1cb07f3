import Winnow.Value.Literal

/-!
# Timestamps of YAML 1.1

A timestamp is a date, or a date with a time of day and perhaps a zone.

* `Timestamp.ofChars?`: the parts of a written timestamp, which need not exist in the calendar.
* `Timestamp.value`: the date or the moment that it stands for.
-/

namespace Winnow.Yaml

/-- The time of day of a written timestamp. -/
structure Clock where
  hour : Nat
  minute : Nat
  second : Nat
  microsecond : Nat
  /-- The offset from UTC in microseconds. -/
  offset : Option Int

/-- The parts of a written timestamp. -/
structure Timestamp where
  year : Nat
  month : Nat
  day : Nat
  clock : Option Clock

namespace Timestamp

/-- A number of `least` to `most` digits at the beginning of a text, and the rest. -/
def takeNumber (least most : Nat) (cs : List Char) : Option (Nat × List Char) :=
  let ds := (cs.take most).takeWhile Char.isDigit
  if ds.length < least then none
  else some (Numeral.valueOf (ds.map (·.toNat - 0x30)), cs.drop ds.length)

/-- The rest of a text behind a character. -/
def behind (mark : Char) : List Char → Option (List Char)
  | c :: cs => if c = mark then some cs else none
  | [] => none

/-- Whether a character is a blank. -/
def isBlankChar (c : Char) : Bool := c = ' ' || c = '\t'

/-- The rest of a text behind the letter or the blanks before a time of day. -/
def behindSeparator : List Char → Option (List Char)
  | [] => none
  | c :: cs =>
    if c = 'T' ∨ c = 't' then some cs
    else if isBlankChar c then some (cs.dropWhile isBlankChar)
    else none

/-- The microseconds of the digits of a fraction of a second, of which the first six count. -/
def fractionMicros (ds : List Char) : Nat :=
  let six := ds.take 6
  Numeral.valueOf (six.map (·.toNat - 0x30)) * Nat.pow 10 (6 - six.length)

/-- The microseconds of an hour and a minute. -/
def offsetOf (hour minute : Nat) : Int := (hour * 60 + minute : Nat) * 60000000

/-- The offset of a zone that takes the whole of a text. -/
def zone? (cs : List Char) : Option (Option Int) :=
  match cs with
  | [] => some none
  | ['Z'] => some (some 0)
  | sign :: cs =>
    if sign = '-' ∨ sign = '+' then do
      let (hour, rest) ← takeNumber 1 2 cs
      let minute ← match rest with
        | [] => some 0
        | rest =>
          match takeNumber 2 2 (← behind ':' rest) with
          | some (minute, []) => some minute
          | _ => none
      let offset := offsetOf hour minute
      return some (if sign = '-' then -offset else offset)
    else none

/-- The time of day that takes the whole of a text. -/
def clock? (cs : List Char) : Option Clock := do
  let (hour, cs) ← takeNumber 1 2 cs
  let (minute, cs) ← takeNumber 2 2 (← behind ':' cs)
  let (second, cs) ← takeNumber 2 2 (← behind ':' cs)
  let fraction := ((behind '.' cs).getD []).takeWhile Char.isDigit
  let rest := ((behind '.' cs).getD cs).drop fraction.length
  let offset ← zone? (rest.dropWhile isBlankChar)
  if offset.isNone ∧ !rest.isEmpty then none
  else return ⟨hour, minute, second, fractionMicros fraction, offset⟩

/-- The timestamp that a text writes out. -/
def ofChars? (cs : List Char) : Option Timestamp := do
  let (year, cs) ← takeNumber 4 4 cs
  let (month, cs) ← takeNumber 1 2 (← behind '-' cs)
  let (day, cs) ← takeNumber 1 2 (← behind '-' cs)
  if cs.isEmpty then return ⟨year, month, day, none⟩
  else return ⟨year, month, day, some (← clock? (← behindSeparator cs))⟩

/-- Whether a text without quotes is a timestamp: month and day of a date alone have two digits. -/
def isWritten (cs : List Char) : Bool :=
  match ofChars? cs with
  | some t => t.clock.isSome || cs.length = 10
  | none => false

/-- The date of a timestamp. -/
def date (t : Timestamp) : Except Fault Date :=
  match Date.of? t.year t.month t.day with
  | some d => .ok d
  | none => .error <|
    if t.year = 0 then .yearOutOfRange 0
    else if t.month < 1 ∨ 12 < t.month then .partOutOfRange .month
    else .partOutOfRange .day

/-- The time of day of a timestamp. -/
def time (c : Clock) : Except Fault TimeOfDay :=
  match TimeOfDay.of? c.hour c.minute c.second c.microsecond with
  | some time => .ok time
  | none => .error <| .partOutOfRange <|
    if 24 ≤ c.hour then .hour else if 60 ≤ c.minute then .minute else .second

/-- The offset of a timestamp, which is less than a day. -/
def offset (c : Clock) : Except Fault (Option Int) :=
  match c.offset with
  | some n => if offsetInRange n then .ok (some n) else .error (.zoneTooLarge (durationLiteral n))
  | none => .ok none

/-- The date or the moment of a timestamp. -/
def value (t : Timestamp) : Except Fault Value :=
  match t.clock with
  | none => t.date.map .date
  | some c => do
    let offset ← offset c
    return .moment ⟨← t.date, ← time c, offset⟩

end Timestamp

end Winnow.Yaml
