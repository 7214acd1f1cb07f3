import Winnow.FilterSet
import Winnow.Json.Printer
import Winnow.Json.Reader
import Winnow.Text.Encoding

/-!
# Filter sets as stored text

A filter set is stored as the JSON list of the entries of its filters.

* `FilterSet.serialize`: the text of a set.
* `FilterSet.deserialize`: the set of a stored blob.  Entries that make no filter for the catalog
  are dropped one by one, and so is every entry with the id of an earlier one.
* `FilterSet.hydrate`: the set of what a store gave, empty if the store failed or gave nothing that
  can be read.
-/

namespace Winnow

/-- What a store holds: bytes, or a text that was put there as it is. -/
inductive Blob where
  | bytes (b : Bytes)
  | text (t : Text)
  deriving DecidableEq

namespace Blob

/-- Whether a blob is empty. -/
def isEmpty : Blob → Bool
  | .bytes b => b.isEmpty
  | .text t => t.isEmpty

/-- The JSON value of a blob.  Bytes are decoded first, which takes a mark away. -/
def json (blob : Blob) : Except Fault (Text × Except Json.Refusal Value) :=
  match blob with
  | .bytes b => do
    let t ← Bytes.decode b
    return (t, Json.readUnmarked t)
  | .text t => .ok (t, Json.read t)

end Blob

namespace FilterSet

/-- The JSON list of the entries of a set. -/
def serialize (s : FilterSet) : Except Fault Text := do
  (← s.entries).json .line

/-- The failure to read stored filters as JSON. -/
def notJson (reason : Text) : Fault :=
  .malformed (("Persisted filters are not valid JSON: " : Text) ++ reason)

/-- The JSON value of stored filters.  Too many digits in a number are reported as such. -/
def storedValue (blob : Blob) : Except Fault Value :=
  match blob.json with
  | .error (.undecodable reason) => .error (notJson reason)
  | .error fault => .error fault
  | .ok (_, .ok v) => .ok v
  | .ok (_, .error (.longInteger digits)) => .error (.digitLimit (some digits))
  | .ok (t, .error refusal) => .error (notJson ((refusal.reason? t).getD []))

/-- The items of stored filters. -/
def storedItems (blob : Blob) : Except Fault (List Value) := do
  match ← storedValue blob with
  | .list items => return items
  | v => .error (.malformed (("Persisted filters must be a list, got " : Text) ++ v.typeName))

/-- The filter that an item makes for a catalog, if it does.  A failure of arithmetic is no reason
to drop an item. -/
def storedFilter (c : Catalog) (rules : Rules) (item : Value) : Except Fault (Option Filter) :=
  match item with
  | .object _ =>
    match Filter.resolve c rules item with
    | .ok f => .ok (some f)
    | .error fault => if fault.isArithmetic then .error fault else .ok none
  | _ => .ok none

/-- Appends a filter unless its id is taken. -/
def addDistinct (filters : List Filter) (f : Filter) : List Filter :=
  if filters.any fun g => g.id == f.id then filters else filters ++ [f]

/-- The filters of a list of items. -/
def storedFilters (c : Catalog) (rules : Rules) (items : List Value) :
    Except Fault (List Filter) := do
  return ((← items.mapM (storedFilter c rules)).filterMap id).foldl addDistinct []

/-- The set of a stored blob. -/
def deserialize (c : Catalog) (rules : Rules) (tokens : Tokens) (blob : Blob) :
    Except Fault FilterSet := do
  let items ← storedItems blob
  return ofFilters c tokens rules.today.isoText (← storedFilters c rules items)

/-- The set without filters. -/
def empty (c : Catalog) (rules : Rules) (tokens : Tokens) : FilterSet :=
  ofFilters c tokens rules.today.isoText []

end FilterSet

/-- Whether a failure means that a store cannot be read, or not as filters. -/
def Fault.isUnreadable : Fault → Bool
  | .malformed _ | .storeFailed _ _ => true
  | .file .isFolder | .file .exists | .file .notAFolder | .file .missing
  | .file .nameTooLong | .file .busy => true
  | _ => false

namespace FilterSet

/-- The set of what a store gave. -/
def hydrate (c : Catalog) (rules : Rules) (tokens : Tokens)
    (loaded : Except Fault (Option Blob)) : Except Fault FilterSet :=
  let result : Except Fault FilterSet := match loaded with
    | .error fault => .error fault
    | .ok none => .ok (empty c rules tokens)
    | .ok (some blob) =>
      if blob.isEmpty then .ok (empty c rules tokens) else deserialize c rules tokens blob
  match result with
  | .ok s => .ok s
  | .error fault => if fault.isUnreadable then .ok (empty c rules tokens) else .error fault

end FilterSet

end Winnow
