import Winnow.Json.Printer
import Winnow.Query
import Winnow.Query.Separator

/-!
# Queries as flat parameters

A query can be sent as a list of parameters `filter_<i>_<part>`, where `<i>` counts the filters from
zero and `<part>` is one of `field`, `operator`, `value` and `sort`.  The items of a list are joined
with a separator.

* `Query.params`: the parameters of a query.
* `Query.ofParams`: the query of a list of parameters.  A value is read by the kind of the
  definition that owns the field.  Parameters with other keys, and filters without a field or an
  operator, are left out.
* `Query.describe`: what is logged about a list of filters.
-/

namespace Winnow

namespace Query

/-! ## Writing -/

/-- The part of a filter that a parameter holds. -/
inductive Part where
  | field
  | operator
  | value
  | sort
  deriving DecidableEq, Repr

namespace Part

/-- Every part. -/
def all : List Part := [.field, .operator, .value, .sort]

/-- The written form of a part. -/
def word : Part → Text
  | .field => "field"
  | .operator => "operator"
  | .value => "value"
  | .sort => "sort"

end Part

/-- The key of a part of a filter. -/
def paramKey (index : Nat) (part : Part) : Text :=
  ("filter_" : Text) ++ Numeral.digits index ++ (.scalar '_' :: part.word)

/-- The text of a value as a parameter. -/
def valueText (separator : Separator) : Value → Except Fault Text
  | .list items => separator.join (Value.itemTexts items)
  | v => v.toText

/-- The parameters of one filter. -/
def filterParams (separator : Separator) (index : Nat) (f : QueryFilter) :
    Except Fault Value.Entries := do
  let text ← valueText separator f.value
  let parts : Value.Entries :=
    [(paramKey index .field, .text f.field), (paramKey index .operator, f.operator.value),
      (paramKey index .value, .text text)]
  let sort : Value.Entries := match f.direction with
    | some d => [(paramKey index .sort, .text d.word)]
    | none => []
  return parts ++ sort

/-- The parameters of filters that are counted from an index on. -/
def paramsFrom (separator : Separator) (index : Nat) : List QueryFilter → Except Fault Value.Entries
  | [] => .ok []
  | f :: fs => do
    return (← filterParams separator index f) ++ (← paramsFrom separator (index + 1) fs)

/-- The parameters of a query. -/
def params (separator : Separator) (q : Query) : Except Fault Value.Entries :=
  paramsFrom separator 0 q.filters

/-- The parameters of a list of filters. -/
def paramsOfFilters (c : Catalog) (separator : Separator) (filters : List Filter) :
    Except Fault Value.Entries := do
  (← ofFilters c filters).params separator

/-! ## Reading -/

/-- The part that the end of a key names; a line break may follow. -/
def partOfText? (t : Text) : Option Part :=
  Part.all.find? fun p => t == p.word || t == p.word ++ [.scalar '\n']

/-- The index numeral and the part of a key. -/
def splitKey? (key : Text) : Option (Text × Part) := do
  let rest ← Text.dropPrefix? "filter_" key
  let numeral := rest.takeWhile CodePoint.isDecimal
  if numeral.isEmpty then none
  match rest.drop numeral.length with
  | .scalar '_' :: word => return (numeral, ← partOfText? word)
  | _ => none

/-- The parts of one filter as they are read; a later parameter replaces an earlier one. -/
structure Parts where
  index : Int
  field : Option Value
  operator : Option Value
  value : Option Value
  sort : Option Value

namespace Parts

/-- A filter none of whose parts is read. -/
def none (index : Int) : Parts := ⟨index, .none, .none, .none, .none⟩

/-- Sets a part. -/
def set (p : Parts) (part : Part) (v : Value) : Parts :=
  match part with
  | .field => { p with field := some v }
  | .operator => { p with operator := some v }
  | .value => { p with value := some v }
  | .sort => { p with sort := some v }

end Parts

/-- Sets a part of the filter with an index, in a list that is sorted by index. -/
def setPart (index : Int) (part : Part) (v : Value) : List Parts → List Parts
  | [] => [(Parts.none index).set part v]
  | p :: ps =>
    if index < p.index then (Parts.none index).set part v :: p :: ps
    else if index = p.index then p.set part v :: ps
    else p :: setPart index part v ps

/-- Collects the parts of the filters, sorted by index. -/
def collect (entries : Value.Entries) : Except Fault (List Parts) :=
  entries.foldlM
    (fun parts e =>
      match splitKey? e.1 with
      | some (numeral, part) => do return setPart (← Numeral.toInt numeral) part e.2 parts
      | none => .ok parts)
    []

/-- Whether a text is an integer numeral without blanks or underscores; a line break may follow. -/
def isIntegerText (t : Text) : Bool :=
  let unsigned := (Numeral.takeSign t).2
  let ds := Text.withoutFinalBreak unsigned
  !ds.isEmpty && ds.all CodePoint.isDecimal

/-- Reads a single value by the kind of its field.  A number that cannot be read stays a text. -/
def scalarValue (kind : Option FieldKind) (t : Text) : Except Fault Value :=
  match kind with
  | some .number =>
    if t.isEmpty then .ok .null
    else if isIntegerText t then do return .int (← Numeral.toInt t)
    else
      match Binary64.ofText? t with
      | some x => .ok (.float x)
      | none => .ok (.text t)
  | some .boolean =>
    if t.isEmpty then .ok .null
    else if t = ("true" : Text) then .ok (.bool true)
    else if t = ("false" : Text) then .ok (.bool false)
    else .ok (.text t)
  | some .date => if t.isEmpty then .ok .null else .ok (.text t)
  | _ => .ok (.text t)

/-- Whether the text of a value is that of a list. -/
def isListText (separator : Separator) (kind : Option FieldKind) (operator : OperatorChoice)
    (t : Text) : Except Fault Bool :=
  let takesList := match operator with
    | .known o => o.takesList
    | .other _ => false
  if takesList then .ok true
  else if kind = some .array then if t.isEmpty then .ok true else separator.isIn t
  else .ok false

/-- Reads the value of a filter. -/
def readValue (separator : Separator) (kind : Option FieldKind) (operator : OperatorChoice)
    (t : Text) : Except Fault Value := do
  if ← isListText separator kind operator t then
    if t.isEmpty then return .list []
    else return .list (← (← separator.cut t).mapM (scalarValue kind))
  else scalarValue kind t

/-- The text that a parameter holds. -/
def paramText : Value → Text
  | .text t => t
  | _ => []

/-- The filter of parts, if it has a field and an operator. -/
def ofParts (c : Catalog) (separator : Separator) (p : Parts) : Except Fault (Option QueryFilter) :=
  match p.field, p.operator with
  | some field, some operator => do
    let field := paramText field
    let kind := (c.byField? field).map Definition.kind
    if !operator.isHashable then .error .unhashable
    let choice := OperatorChoice.ofValue operator
    let direction := p.sort.bind fun v => Direction.ofText? (paramText v)
    let text := (p.value.map paramText).getD []
    return some ⟨field, choice, ← readValue separator kind choice text, direction⟩
  | _, _ => .ok none

/-- The query of a list of parameters. -/
def ofParams (c : Catalog) (separator : Separator) (entries : Value.Entries) :
    Except Fault Query := do
  let parts ← collect entries
  return ofQueryFilters ((← parts.mapM (ofParts c separator)).filterMap id)

/-! ## Logging -/

/-- What is logged about a query: its parameters or its payload. -/
inductive Form where
  | params
  | payload
  deriving DecidableEq, Repr

/-- The form that a value names; the payload unless the parameters are named. -/
def Form.ofValue : Value → Form
  | .text t => if t = ("params" : Text) then .params else .payload
  | _ => .payload

/-- What is logged about a list of filters: the query in a form and the entries of the filters. -/
def describe (c : Catalog) (separator : Separator) (now : Moment) (form : Form)
    (filters : List Filter) : Except Fault (List Text) := do
  let query ← match form with
    | .params => do
      let entries ← paramsOfFilters c separator filters
      pure (("Query parameters: " : Text) ++ (← (Value.object entries).json .line))
    | .payload => do
      let payload ← payload c now filters
      pure (("Query payload: " : Text) ++ (← payload.json .line))
  let entries ← filters.mapM Filter.entry
  return [query, ("Active filters: " : Text) ++ (← (Value.list entries).json .line)]

end Query

end Winnow
