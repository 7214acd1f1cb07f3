import Winnow.Value.Coercion

/-!
# Records

A record is a list of entries.  A field of a record is named by a path: a key of the record, or else
keys and places of nested objects and lists with points between them.

* `Record.read`: the value of a field, nothing if the path leads nowhere.
-/

namespace Winnow

/-- The entries of a record. -/
abbrev Record := Value.Entries

namespace Record

/-- The point between the parts of a path. -/
def point : Text := "."

/-- The item of a list at the place that a part of a path names.  Only digits name a place, but some
digits make no numeral. -/
def item (items : List Value) (part : Text) : Except Fault Value :=
  if !part.isEmpty && part.all CodePoint.isDigit then do
    return items.getD (← Numeral.toInt part).toNat .null
  else .ok .null

/-- The value that a part of a path leads to, nothing if it leads nowhere. -/
def step (v : Value) (part : Text) : Except Fault Value :=
  match v with
  | .object entries => .ok ((Value.find? part entries).getD .null)
  | .list items => item items part
  | _ => .ok .null

/-- The value of a field.  A key of the record counts before the parts of the path. -/
def read (r : Record) (path : Text) : Except Fault Value :=
  match Value.find? path r with
  | some v => .ok v
  | none => (Text.splitOn point path).foldlM step (.object r)

end Record

end Winnow
