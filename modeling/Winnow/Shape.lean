import Winnow.Catalog.Definition
import Winnow.Value.Coercion

/-!
# The shapes of filter values

Each kind of field admits values of its own shape, alone or in a list.

* `FieldKind.defaultValue`: the value of a new filter.
* `FieldKind.admits`: whether a value has a shape that a kind admits, within the limits.
* `FieldKind.isComplete`: whether a filter has enough of a value to be worth applying.
-/

namespace Winnow

/-- How long texts and lists may be.  Any value can be set as a limit, but a length can be compared
only with a number. -/
structure Limits where
  textLength : Value
  listLength : Value

/-- Comparison of a length with a limit; nothing if the limit is no number at all. -/
def Limits.compare (length : Nat) (limit : Value) : Except Fault (Option Ordering) :=
  match limit.numeric? with
  | some x => .ok ((Value.Numeric.int length).order? x)
  | none => .error .unusableSetting

/-- What decides whether a value is admitted: the limits, and the day that completes a date whose
parts are not all written. -/
structure Rules where
  today : Date
  limits : Limits

/-- The operator of a filter: one of the vocabulary, or any other value. -/
inductive OperatorChoice where
  | known (o : Operator)
  | other (v : Value)

namespace OperatorChoice

/-- The written form of an operator. -/
def value : OperatorChoice → Value
  | .known o => .text o.word
  | .other v => v

/-- The operator that a value stands for. -/
def ofValue (v : Value) : OperatorChoice :=
  match v with
  | .text t =>
    match Operator.ofText? t with
    | some o => .known o
    | none => .other v
  | _ => .other v

end OperatorChoice

namespace FieldKind

/-- The value of a new filter of a kind; `today` is the text of the present day. -/
def defaultValue (today : Text) : FieldKind → Value
  | .number => .int 0
  | .boolean => .bool true
  | .date => .text today
  | .array => .list []
  | .text | .select => .text []

/-- Whether a single value has the shape that a kind admits. -/
def fits (today : Date) : FieldKind → Value → Except Fault Bool
  | .text, .text _ | .select, .text _ | .array, .text _ => .ok true
  | .number, .int _ => .ok true
  | .number, .float x => .ok !x.isNaN
  | .date, .text t => do return (← Moment.ofWritten today t).isSome
  | .boolean, .bool _ => .ok true
  | _, _ => .ok false

/-- Whether a value is no text, or one within the limit. -/
def lengthAdmitted (limits : Limits) : Value → Except Fault Bool
  | .text t => do return (← Limits.compare t.length limits.textLength).any (· != .gt)
  | _ => .ok true

/-- Whether a list has more items than the limit. -/
def isOverlong (limits : Limits) (items : List Value) : Except Fault Bool := do
  return (← Limits.compare items.length limits.listLength) == some .gt

/-- Whether a single value is admitted. -/
def admitsItem (rules : Rules) (kind : FieldKind) (v : Value) : Except Fault Bool := do
  if ← kind.fits rules.today v then lengthAdmitted rules.limits v else return false

/-- Whether a list of values is admitted. -/
def admitsItems (rules : Rules) (kind : FieldKind) (items : List Value) : Except Fault Bool := do
  if kind = .boolean then return false
  else if ← isOverlong rules.limits items then return false
  else items.allM (admitsItem rules kind)

/-- Whether a value is admitted.  A value may be absent for every kind, and every kind but the
truth values admits lists. -/
def admits (rules : Rules) (kind : FieldKind) : Value → Except Fault Bool
  | .null => .ok true
  | .list items => admitsItems rules kind items
  | .tuple items => admitsItems rules kind items
  | v => admitsItem rules kind v

/-- Whether a value is absent, an empty text or an empty list. -/
def isBlank : Value → Bool
  | .null => true
  | .text t => t.isEmpty
  | .list items => items.isEmpty
  | _ => false

/-- Whether a value counts as a number. -/
def countsAsNumber (today : Date) (v : Value) : Except Fault Bool := do
  return !(← v.toNumber today).isNaN

/-- Whether a value counts as a moment. -/
def countsAsMoment (today : Date) (v : Value) : Except Fault Bool := do
  return (← v.toMoment today).isSome

/-- A test of a value, or of every item of a list up to the first that fails it. -/
def testEach (test : Value → Except Fault Bool) : Value → Except Fault Bool
  | .list items => items.allM test
  | v => test v

/-- Whether a value is complete for a kind, whatever the operator. -/
def isCompleteValue (today : Date) (kind : FieldKind) (v : Value) : Except Fault Bool :=
  if isBlank v then .ok false
  else
    match kind, v with
    | .number, _ => testEach (countsAsNumber today) v
    | .date, _ => testEach (countsAsMoment today) v
    | .boolean, .bool _ => .ok true
    | .boolean, _ => .ok false
    | _, .list _ | _, .text _ => .ok true
    | _, _ => .ok false

/-- Whether a filter of a kind has enough of a value to be worth applying. -/
def isComplete (today : Date) (kind : FieldKind) (operator : OperatorChoice) (v : Value) :
    Except Fault Bool :=
  match operator with
  | .known o => if o.takesNothing then .ok true else isCompleteValue today kind v
  | .other choice =>
    if choice.isHashable then isCompleteValue today kind v else .error .unhashable

end FieldKind

end Winnow
