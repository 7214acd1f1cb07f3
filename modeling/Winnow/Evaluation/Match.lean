import Winnow.Filter
import Winnow.Record
import Winnow.Text.Lowercase

/-!
# Matching

`Filter.accepts` tells whether a record satisfies a filter.  A record without a value in the field
satisfies no filter but the one for false truth values; an operator outside the vocabulary is
satisfied by every value.

* `Value.looselyEquals`: equality after coercing both values to one type.
* `Value.sameDay`: equality of dates, by their days in UTC.
* `Value.holds`: membership in a list, or containment in a text regardless of case.
* `Value.liesBetween`: whether a value is in a closed range.
-/

namespace Winnow

namespace Binary64

/-- Whether a number is less than another. -/
def less (x y : Binary64) : Bool := x.order? y == some .lt

/-- Whether a number is less than or equal to another. -/
def lessOrEqual (x y : Binary64) : Bool := x.less y || x.equals y

end Binary64

namespace Value

/-- Whether a value is a date or a moment. -/
def isCalendar : Value → Bool
  | .date _ | .moment _ => true
  | _ => false

/-- Applies a test to the numbers of two values. -/
def compareNumbers (today : Date) (test : Binary64 → Binary64 → Bool) (v w : Value) :
    Except Fault Bool := do
  return test (← v.toNumber today) (← w.toNumber today)

/-- Applies a test to the moments of two values, in milliseconds. -/
def compareMoments (today : Date) (test : Binary64 → Binary64 → Bool) (v w : Value) :
    Except Fault Bool := do
  return test (← v.toEpochMillis today) (← w.toEpochMillis today)

/-- Equality of texts. -/
def sameText (v w : Value) : Except Fault Bool := do
  return (← v.toText) == (← w.toText)

/-- Equality of two values that are no lists, after coercing both to one type. -/
def looselyEqualItems (today : Date) (v w : Value) : Except Fault Bool :=
  match v, w with
  | .text s, .text t => .ok (s == t)
  | .bool a, .bool b => .ok (a == b)
  | _, _ =>
    if v.isCalendar || w.isCalendar then compareMoments today Binary64.equals v w
    else if w.isNull then .ok false
    else compareNumbers today Binary64.equals v w

/-- Equality after coercing both values to one type.  A list and another value are compared by
their texts. -/
def looselyEquals (today : Date) (v w : Value) : Except Fault Bool :=
  match v, w with
  | .list xs, .list ys => .ok (equalItems xs ys)
  | .list _, _ => sameText v w
  | _, .list _ => sameText v w
  | _, _ => looselyEqualItems today v w

/-- Equality in a field of dates: by the days in UTC, if both values have moments. -/
def sameDay (today : Date) (v w : Value) : Except Fault Bool := do
  match ← v.toMoment today, ← w.toMoment today with
  | some m, some n => return (← m.toUtc).date == (← n.toUtc).date
  | _, _ => v.looselyEquals today w

/-- Equality in a field of a kind. -/
def equalsFor (today : Date) (kind : FieldKind) (v w : Value) : Except Fault Bool :=
  if kind = .date then v.sameDay today w else v.looselyEquals today w

/-- Whether a list holds a value or any of a list of values, or a text holds another regardless of
case. -/
def holds (v w : Value) : Except Fault Bool :=
  match v, w with
  | .list xs, .list ys => .ok (ys.any fun y => y.isIn xs)
  | .list xs, _ => .ok (w.isIn xs)
  | _, _ => do
    let part ← w.toText
    let whole ← v.toText
    return Text.occursIn part.lower whole.lower

/-- Applies a test to the texts of two values regardless of case. -/
def compareTexts (test : Text → Text → Bool) (v w : Value) : Except Fault Bool := do
  return test (← v.toText).lower (← w.toText).lower

/-- Whether a value is among the items of a list. -/
def isAmong (v w : Value) : Bool :=
  match w with
  | .list items => v.isIn items
  | _ => false

/-- Whether a value lies in the closed range that two others span; of anything else than two values
no range is made. -/
def liesBetween (today : Date) (kind : FieldKind) (v w : Value) : Except Fault Bool :=
  let coerce := if kind = .date then toEpochMillis today else toNumber today
  match w with
  | .list [low, high] => do
    let x ← coerce v
    let a ← coerce low
    let b ← coerce high
    return a.lessOrEqual x && x.lessOrEqual b
  | _ => .ok false

/-- Whether a value is a given truth value. -/
def isBool (b : Bool) : Value → Bool
  | .bool c => b == c
  | _ => false

end Value

namespace Operator

/-- Whether a field of a kind with a value satisfies an operator with a value. -/
def test (today : Date) (kind : FieldKind) (field value : Value) : Operator → Except Fault Bool
  | .equals => field.equalsFor today kind value
  | .notEquals => do return !(← field.equalsFor today kind value)
  | .contains => field.holds value
  | .notContains => do return !(← field.holds value)
  | .startsWith => field.compareTexts (fun whole part => part.isPrefixOf whole) value
  | .endsWith => field.compareTexts (fun whole part => part.isSuffixOf whole) value
  | .greaterThan => field.compareNumbers today (fun x y => y.less x) value
  | .lessThan => field.compareNumbers today Binary64.less value
  | .greaterThanOrEqual => field.compareNumbers today (fun x y => y.lessOrEqual x) value
  | .lessThanOrEqual => field.compareNumbers today Binary64.lessOrEqual value
  | .isIn => .ok (field.isAmong value)
  | .notIn => .ok (!field.isAmong value)
  | .isTrue => .ok (field.isBool true)
  | .isFalse => .ok (field.isBool false)
  | .before => field.compareMoments today Binary64.less value
  | .after => field.compareMoments today (fun x y => y.less x) value
  | .between => field.liesBetween today kind value

/-- Whether a field of a kind without a value satisfies an operator. -/
def testAbsent (kind : FieldKind) (o : Operator) : Bool := o == .isFalse && kind == .boolean

end Operator

namespace OperatorChoice

/-- Whether a field of a kind with a value satisfies an operator with a value. -/
def test (today : Date) (kind : FieldKind) (field value : Value) :
    OperatorChoice → Except Fault Bool
  | .known o =>
    if field.isNull then .ok (o.testAbsent kind) else o.test today kind field value
  | .other _ => .ok (!field.isNull)

end OperatorChoice

namespace Filter

/-- Whether a record satisfies a filter with a definition. -/
def accepts (today : Date) (d : Definition) (f : Filter) (r : Record) : Except Fault Bool := do
  f.operator.test today d.kind (← r.read d.field) f.value

end Filter

end Winnow
