import Winnow.Filter.Entry
import Winnow.FilterSet.Token

/-!
# Filter sets

A filter set is a list of filters bound to a catalog.  The order counts: it is the order of display
and the precedence of sort keys.  Ids that were issued are never issued again, also after their
filters are gone.

* `FilterSet.compose`: appends a new filter with the defaults of its definition.
* `FilterSet.update`: changes the operator, the value and the direction of a filter, each on its
  own, where the definition allows it.
* `FilterSet.remove`, `FilterSet.clear`: takes filters away.
* `FilterSet.reorder`: moves a filter right before another one.

An edit of a filter that is not there changes nothing.
-/

namespace Winnow

/-- An ordered collection of filters. -/
structure FilterSet where
  catalog : Catalog
  filters : List Filter
  issued : List Text
  tokens : Tokens
  /-- The text of the present day, which new date filters start with. -/
  today : Text

/-- What is to be changed of a filter; what is absent is left as it is. -/
structure Patch where
  operator : Option Value
  value : Option Value
  sorting : Option Value

namespace Patch

/-- The patch that changes nothing. -/
def empty : Patch := ⟨none, none, none⟩

/-- Adds a change by its name. -/
def add (p : Patch) (name : Text) (v : Value) : Except Fault Patch :=
  if name = ("operator" : Text) then .ok { p with operator := some v }
  else if name = ("value" : Text) then .ok { p with value := some v }
  else if name = ("sort_direction" : Text) then .ok { p with sorting := some v }
  else .error .unknownChange

/-- The patch of named changes. -/
def ofEntries (entries : Value.Entries) : Except Fault Patch :=
  entries.foldlM (fun p e => p.add e.1 e.2) empty

/-- What a part of a filter becomes: what is asked for if it is accepted, and else what it was.  What
is not accepted is noted in the log, which fails at an integer with too many digits. -/
def part {α : Type} (accepted : Value → Except Fault (Option α)) (asked : Option Value) (old : α) :
    Except Fault α :=
  match asked with
  | none => .ok old
  | some v => do
    match ← accepted v with
    | some new => return new
    | none =>
      let _ ← v.literal
      return old

/-- The operator that a value names, if there is a definition and it allows it. -/
def acceptedOperator (d : Option Definition) (v : Value) : Except Fault (Option OperatorChoice) :=
  .ok ((d.bind fun d => d.allowed? v).map .known)

/-- A value, if there is a definition and its kind admits it. -/
def acceptedValue (rules : Rules) (d : Option Definition) (v : Value) :
    Except Fault (Option Value) :=
  match d with
  | some d => do return if ← d.kind.admits rules v then some v.normalize else none
  | none => .ok none

/-- The direction that a value stands for: none, or one of the vocabulary. -/
def acceptedSorting (v : Value) : Except Fault (Option (Option Sorting)) :=
  match v with
  | .null => .ok (some none)
  | v => .ok ((Direction.ofValue v).toOption.map fun d => some (.by d))

/-- A filter after a patch, each part of it on its own.  Without a definition only the direction can
change. -/
def apply (rules : Rules) (d : Option Definition) (p : Patch) (f : Filter) :
    Except Fault Filter := do
  return { f with
    operator := ← part (acceptedOperator d) p.operator f.operator
    value := ← part (acceptedValue rules d) p.value f.value
    sorting := ← part acceptedSorting p.sorting f.sorting }

end Patch

namespace FilterSet

/-- The set of given filters. -/
def ofFilters (c : Catalog) (tokens : Tokens) (today : Text) (filters : List Filter) : FilterSet :=
  ⟨c, filters, filters.map Filter.id, tokens, today⟩

/-- Equality of sets: the same filters in the same order. -/
def equals (s t : FilterSet) : Bool := Filter.equalLists s.filters t.filters

/-- The filter with an id. -/
def get? (s : FilterSet) (id : Value) : Option Filter := s.filters.find? (Filter.hasId id)

/-- The place of the filter with an id. -/
def place? (id : Value) (filters : List Filter) : Option Nat := filters.findIdx? (Filter.hasId id)

/-- The new filter for a definition and the tokens that are left. -/
def newFilter (s : FilterSet) (d : Definition) : Filter × Tokens :=
  let (id, tokens) := s.tokens.fresh d.id s.issued
  (⟨id, d.id, .known d.defaultOperator, d.kind.defaultValue s.today, none⟩, tokens)

/-- Appends a new filter for a definition. -/
def compose (s : FilterSet) (definitionId : Value) : Except Fault (Filter × FilterSet) := do
  match ← s.catalog.lookup definitionId with
  | none => .error (.unknownDefinition (← definitionId.plainText))
  | some d =>
    let (f, tokens) := s.newFilter d
    return (f, { s with filters := s.filters ++ [f], issued := f.id :: s.issued, tokens := tokens })

/-- Changes the filter with an id, which is given back as it is then.  The id of no filter is noted
in the log. -/
def update (s : FilterSet) (rules : Rules) (id : Value) (p : Patch) :
    Except Fault (Option Filter × FilterSet) :=
  match place? id s.filters, s.get? id with
  | some i, some old => do
    let f ← p.apply rules (s.catalog.find? old.definitionId) old
    return (some f, { s with filters := s.filters.set i f })
  | _, _ => do
    let _ ← id.plainText
    return (none, s)

/-- Takes the filter with an id away and gives it back. -/
def remove (s : FilterSet) (id : Value) : Option Filter × FilterSet :=
  match place? id s.filters with
  | none => (none, s)
  | some i => (s.filters[i]?, { s with filters := s.filters.eraseIdx i })

/-- The filters with one moved right before another, and whether the order changed. -/
def moveBefore (id target : Value) (filters : List Filter) : Bool × List Filter :=
  if id.equals target then (false, filters)
  else
    match filters.find? (Filter.hasId id), place? id filters, place? target filters with
    | some moved, some i, some _ =>
      let rest := filters.eraseIdx i
      let j := rest.findIdx (Filter.hasId target)
      (j != i, rest.insertIdx j moved)
    | _, _, _ => (false, filters)

/-- Moves the filter with an id right before another one, and tells whether the order changed. -/
def reorder (s : FilterSet) (id target : Value) : Bool × FilterSet :=
  let (changed, filters) := moveBefore id target s.filters
  (changed, { s with filters := filters })

/-- Takes all filters away. -/
def clear (s : FilterSet) : FilterSet := { s with filters := [] }

/-- The entries of all filters. -/
def entries (s : FilterSet) : Except Fault Value := do
  return .list (← s.filters.mapM Filter.entry)

/-- A set in literal notation. -/
def literal (s : FilterSet) : Except Fault Text := do
  return applied "ActiveFilterSet"
    [("registry=" : Text) ++ s.catalog.name,
      ("filters=[" : Text) ++ commaSeparated (← s.filters.mapM Filter.literal) ++ ("]" : Text)]

end FilterSet

end Winnow
