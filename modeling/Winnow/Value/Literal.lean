import Winnow.Binary64.Decimal
import Winnow.Numeral
import Winnow.Value

/-!
# Values in literal notation

`Value.literal` writes a value the way it is written inside containers: texts are quoted, lists
stand in brackets, tuples in parentheses, objects in braces, and dates and moments are written by
their parts.  It fails only at an integer with too many digits.
-/

namespace Winnow

/-- Joins texts with a comma and a blank. -/
def commaSeparated (ts : List Text) : Text := List.intercalate (", " : Text) ts

/-- A constructor applied to arguments. -/
def applied (constructor : Text) (arguments : List Text) : Text :=
  constructor ++ ("(" : Text) ++ commaSeparated arguments ++ (")" : Text)

/-- A natural number in decimal. -/
def natText (n : Nat) : Text := Numeral.digits n

/-- A duration by days, seconds and microseconds, of which only the days may be negative; parts
that are zero are left out. -/
def durationLiteral (micros : Int) : Text :=
  let days := micros / microsPerDay
  let inDay := (micros % microsPerDay).toNat
  let part (name : Text) (n : Int) : List Text :=
    if n = 0 then [] else [name ++ ("=" : Text) ++ Numeral.ofIntUnlimited n]
  let parts := part "days" days ++ part "seconds" (inDay / 1000000 : Nat) ++
    part "microseconds" (inDay % 1000000 : Nat)
  applied "datetime.timedelta" (if parts.isEmpty then [("0" : Text)] else parts)

/-- A zone by its offset from UTC. -/
def zoneLiteral (offset : Int) : Text :=
  if offset = 0 then "datetime.timezone.utc"
  else applied "datetime.timezone" [durationLiteral offset]

/-- A date by its parts. -/
def Date.literal (d : Date) : Text :=
  applied "datetime.date" [natText d.year, natText d.month, natText d.day]

/-- A moment by its parts; seconds and microseconds of zero are left out from the end. -/
def Moment.literal (m : Moment) : Text :=
  let fraction := if m.time.microsecond = 0 then [] else [natText m.time.microsecond]
  let seconds := if m.time.second = 0 ∧ m.time.microsecond = 0 then []
    else natText m.time.second :: fraction
  let zone := match m.offset with
    | none => []
    | some offset => [("tzinfo=" : Text) ++ zoneLiteral offset]
  applied "datetime.datetime" <|
    [natText m.date.year, natText m.date.month, natText m.date.day,
      natText m.time.hour, natText m.time.minute] ++ seconds ++ zone

namespace Value

mutual

/-- The literal notation of a value. -/
def literal : Value → Except Fault Text
  | .null => .ok "None"
  | .bool b => .ok (if b then "True" else "False")
  | .int n => Numeral.ofInt n
  | .float x => .ok x.text
  | .text t => .ok t.quoted
  | .date d => .ok d.literal
  | .moment m => .ok m.literal
  | .list items => do
    return ("[" : Text) ++ commaSeparated (← itemLiterals items) ++ ("]" : Text)
  | .tuple items => do
    match ← itemLiterals items with
    | [item] => return ("(" : Text) ++ item ++ (",)" : Text)
    | ts => return ("(" : Text) ++ commaSeparated ts ++ (")" : Text)
  | .object entries => do
    return ("\x7b" : Text) ++ commaSeparated (← entryLiterals entries) ++ ("\x7d" : Text)

/-- The literal notations of the items of a list. -/
def itemLiterals : List Value → Except Fault (List Text)
  | [] => .ok []
  | v :: vs => do return (← literal v) :: (← itemLiterals vs)

/-- The literal notations of the entries of an object. -/
def entryLiterals : List (Text × Value) → Except Fault (List Text)
  | [] => .ok []
  | (key, v) :: es => do
    return (key.quoted ++ (": " : Text) ++ (← literal v)) :: (← entryLiterals es)

end

/-- The plain text of a value: that of a text is the text itself. -/
def plainText : Value → Except Fault Text
  | .text t => .ok t
  | .date d => .ok d.isoText
  | .moment m => m.textWith ' '
  | v => v.literal

end Value

end Winnow
