import Winnow.Binary64
import Winnow.Calendar.Moment

/-!
# Values

Record fields and filter values are dynamic.  A value is nothing, a truth value, an integer, a
binary64 number, a text, a list, a tuple, a date, a moment or an object.

* `Value.equals`: equality across the numeric types.  Truth values count as 0 and 1, integers and
  binary64 numbers are compared without rounding, objects are compared without regard to the order
  of their entries, and a list never equals a tuple nor a date a moment.
* `Value.put`, `Value.find?`: writing and reading the entries of an object.
-/

namespace Winnow

/-- A dynamic value. -/
inductive Value where
  | null
  | bool (b : Bool)
  | int (n : Int)
  | float (x : Binary64)
  | text (t : Text)
  | list (items : List Value)
  | tuple (items : List Value)
  | date (d : Date)
  | moment (m : Moment)
  | object (entries : List (Text × Value))

namespace Value

instance : Inhabited Value := ⟨.null⟩

/-- The entries of an object, in the order in which their keys were first written. -/
abbrev Entries := List (Text × Value)

/-- The value of a key. -/
def find? (key : Text) (entries : Entries) : Option Value :=
  (entries.find? fun e => e.1 == key).map (·.2)

/-- Writes the value of a key: an old key keeps its place, a new one comes last. -/
def put (key : Text) (v : Value) : Entries → Entries
  | [] => [(key, v)]
  | e :: es => if e.1 = key then (key, v) :: es else e :: put key v es

/-- The object of a list of entries, later ones overwriting earlier ones. -/
def ofEntries (entries : Entries) : Value :=
  .object (entries.foldl (fun es e => put e.1 e.2 es) [])

/-- A value that is a number where truth values count as 0 and 1. -/
inductive Numeric where
  | int (n : Int)
  | float (x : Binary64)

/-- The number that a value is compared as. -/
def numeric? : Value → Option Numeric
  | .bool b => some (.int (if b then 1 else 0))
  | .int n => some (.int n)
  | .float x => some (.float x)
  | _ => none

/-- Numerical comparison without rounding; nothing where an operand is no number. -/
def Numeric.order? : Numeric → Numeric → Option Ordering
  | .int m, .int n => some (compare m n)
  | .int m, .float y => Binary64.orderInt? m y
  | .float x, .int n => (Binary64.orderInt? n x).map Ordering.swap
  | .float x, .float y => x.order? y

mutual

/-- Equality of values. -/
def equals : Value → Value → Bool
  | .null, .null => true
  | .text s, .text t => s == t
  | .list xs, .list ys => equalItems xs ys
  | .tuple xs, .tuple ys => equalItems xs ys
  | .date d, .date e => d == e
  | .moment m, .moment n => m.equals n
  | .object es, .object fs => es.length == fs.length && containedIn fs es
  | v, w =>
    match v.numeric?, w.numeric? with
    | some x, some y => x.order? y == some .eq
    | _, _ => false

/-- Equality of lists of values, item by item. -/
def equalItems : List Value → List Value → Bool
  | [], [] => true
  | x :: xs, y :: ys => equals x y && equalItems xs ys
  | _, _ => false

/-- Whether each of the second entries has its key among the first ones, with an equal value. -/
def containedIn (fs : Entries) : Entries → Bool
  | [] => true
  | (key, v) :: es =>
    (match find? key fs with
      | some w => equals v w
      | none => false) && containedIn fs es

end

/-- Whether some item of a list equals a value. -/
def isIn (v : Value) (items : List Value) : Bool := items.any v.equals

/-- The text that a value is. -/
def text? : Value → Option Text
  | .text t => some t
  | _ => none

/-- Whether a value is absent. -/
def isNull : Value → Bool
  | .null => true
  | _ => false

/-- Whether a value is absent, false, zero or empty. -/
def isVoid : Value → Bool
  | .null => true
  | .bool b => !b
  | .int n => n == 0
  | .float x => x.equals Binary64.zero
  | .text t => t.isEmpty
  | .list items | .tuple items => items.isEmpty
  | .object entries => entries.isEmpty
  | .date _ | .moment _ => false

/-- Whether a value is an integer or a binary64 number. -/
def isNumber : Value → Bool
  | .int _ | .float _ => true
  | _ => false

mutual

/-- Whether a value may serve as a key: objects and lists may not, and neither may tuples that hold
one of them. -/
def isHashable : Value → Bool
  | .list _ | .object _ => false
  | .tuple items => areHashable items
  | _ => true

/-- Whether all items of a tuple may serve as keys. -/
def areHashable : List Value → Bool
  | [] => true
  | v :: vs => isHashable v && areHashable vs

end

/-- The value without sharing: a tuple becomes a list. -/
def normalize : Value → Value
  | .tuple items => .list items
  | v => v

/-- The name of a value's type. -/
def typeName : Value → Text
  | .null => "NoneType"
  | .bool _ => "bool"
  | .int _ => "int"
  | .float _ => "float"
  | .text _ => "str"
  | .list _ => "list"
  | .tuple _ => "tuple"
  | .date _ => "date"
  | .moment _ => "datetime"
  | .object _ => "dict"

/-- The value of a text that may be absent. -/
def ofText? : Option Text → Value
  | some t => .text t
  | none => .null

end Value

end Winnow
