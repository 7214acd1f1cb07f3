import Winnow.Filter
import Winnow.Record

/-!
# The order of records

Records are ordered by sort keys: fields with directions, the first of which counts most.

* `Value.order`: comparison of two values that are not absent.  Texts are collated by code point,
  numbers compared without rounding, dates and moments by their instants, and anything else by its
  text.
* `Direction.order`: comparison in a direction.  Absent values come last in both directions, and
  values that cannot be compared count as equal.
* `Record.order`: comparison by a list of keys.
* `Row.sort`: the stable sort by a list of keys.
-/

namespace Winnow

namespace Text

/-- Comparison by code point of texts without the code point zero. -/
def collate (s t : Text) : Except Fault Ordering :=
  if s.contains nul || t.contains nul then .error .nullCharacter else .ok (order s t)

end Text

namespace Value

/-- Comparison of two numbers; nothing is less or greater than no number. -/
def orderNumbers (v w : Value) : Ordering :=
  match v.numeric?, w.numeric? with
  | some x, some y => (x.order? y).getD .eq
  | _, _ => .eq

/-- Comparison of the moments of two values. -/
def orderMoments (today : Date) (v w : Value) : Except Fault Ordering := do
  let x ← v.toEpochMillis today
  let y ← w.toEpochMillis today
  return (x.order? y).getD .eq

/-- Comparison of two values that are not absent. -/
def order (today : Date) (v w : Value) : Except Fault Ordering :=
  match v, w with
  | .text s, .text t => Text.collate s t
  | _, _ =>
    if v.isNumber && w.isNumber then .ok (v.orderNumbers w)
    else
      match v, w with
      | .date _, .date _ | .date _, .moment _ | .moment _, .date _ | .moment _, .moment _ =>
        orderMoments today v w
      | _, _ => do Text.collate (← v.toText) (← w.toText)

end Value

/-- A field that records are sorted by. -/
structure SortKey where
  field : Text
  direction : Direction
  deriving DecidableEq

namespace Direction

/-- An ordering in a direction. -/
def orient (d : Direction) (o : Ordering) : Ordering :=
  match d with
  | .ascending => o
  | .descending => o.swap

/-- Comparison in a direction of two values that may be absent. -/
def order (today : Date) (d : Direction) (v w : Value) : Ordering :=
  match v.isNull, w.isNull with
  | true, true => .eq
  | true, false => .gt
  | false, true => .lt
  | false, false =>
    match v.order today w with
    | .ok o => d.orient o
    | .error _ => .eq

end Direction

namespace Record

/-- Comparison by a list of keys: the first key that tells the records apart decides.  A field that
cannot be read fails. -/
def order (today : Date) : List SortKey → Record → Record → Except Fault Ordering
  | [], _, _ => .ok .eq
  | key :: keys, r, s => do
    match key.direction.order today (← r.read key.field) (← s.read key.field) with
    | .eq => order today keys r s
    | o => return o

end Record

/-- A record and its place in the collection that is evaluated. -/
structure Row where
  place : Nat
  record : Record

namespace Row

/-- The rows of a collection of records. -/
def number (records : List Record) : List Row := records.mapIdx fun i r => ⟨i, r⟩

/-- The first failure to compare two of the rows. -/
def incomparable? (today : Date) (keys : List SortKey) : List Row → Option Fault
  | [] => none
  | r :: rows =>
    (rows.findSome? fun s =>
      match r.record.order today keys s.record with
      | .ok _ => none
      | .error fault => some fault).orElse fun _ => incomparable? today keys rows

/-- Whether a row may stand before another one. -/
def precedes (today : Date) (keys : List SortKey) (r s : Row) : Bool :=
  match r.record.order today keys s.record with
  | .ok o => o != .gt
  | .error _ => true

/-- The stable sort by a list of keys.  It fails if two of the rows cannot be compared. -/
def sort (today : Date) (keys : List SortKey) (rows : List Row) : Except Fault (List Row) :=
  if keys.isEmpty then .ok rows
  else
    match incomparable? today keys rows with
    | some fault => .error fault
    | none => .ok (rows.mergeSort (precedes today keys))

end Row

end Winnow
