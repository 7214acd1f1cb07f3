import Winnow.Evaluation.Order
import Winnow.Filter.Bound
import Winnow.FilterSet

/-!
# Queries

A query states filters by the fields they read instead of their definitions, so that it can be sent
elsewhere.  It lists the filters and, once more, the sort keys among them.

* `Query.ofFilters`: the query of a list of filters; those without a definition are left out.
* `Query.wire`: a query as a value for transport.
* `Query.equals`: equality, with values compared as values are.
-/

namespace Winnow

/-- A filter as it stands in a query. -/
structure QueryFilter where
  field : Text
  operator : OperatorChoice
  value : Value
  direction : Option Direction

namespace QueryFilter

/-- Equality of filters in queries. -/
def equals (f g : QueryFilter) : Bool :=
  f.field == g.field && f.operator.value.equals g.operator.value && f.value.equals g.value &&
    f.direction == g.direction

/-- Equality of lists of filters, one by one. -/
def equalLists : List QueryFilter → List QueryFilter → Bool
  | [], [] => true
  | f :: fs, g :: gs => f.equals g && equalLists fs gs
  | _, _ => false

/-- A filter as a value for transport. -/
def wire (f : QueryFilter) : Value :=
  let parts : Value.Entries :=
    [("field", .text f.field), ("operator", f.operator.value), ("value", f.value)]
  let direction : Value.Entries := match f.direction with
    | some d => [("sortDirection", .text d.word)]
    | none => []
  .object (parts ++ direction)

/-- The sort key of a filter, if it has a direction. -/
def sortKey? (f : QueryFilter) : Option SortKey := f.direction.map (⟨f.field, ·⟩)

end QueryFilter

namespace SortKey

/-- A sort key as a value for transport. -/
def wire (key : SortKey) : Value :=
  .object [("field", .text key.field), ("direction", .text key.direction.word)]

end SortKey

/-- Filters by field, and their sort keys. -/
structure Query where
  filters : List QueryFilter
  sort : List SortKey

namespace Query

/-- The query of filters that are stated by field. -/
def ofQueryFilters (filters : List QueryFilter) : Query :=
  ⟨filters, filters.filterMap QueryFilter.sortKey?⟩

/-- The direction of a filter in a query; an empty one counts as absent. -/
def direction (sorting : Option Sorting) : Except Fault (Option Direction) :=
  match sorting with
  | none | some (.written []) => .ok none
  | some s => do return some (← s.direction)

/-- A filter and its definition, stated by field. -/
def project (f : Filter × Definition) : Except Fault QueryFilter := do
  return ⟨f.2.field, f.1.operator, f.1.value, ← direction f.1.sorting⟩

/-- The query of a list of filters. -/
def ofFilters (c : Catalog) (filters : List Filter) : Except Fault Query := do
  return ofQueryFilters (← (c.bind filters).mapM project)

/-- Equality of queries. -/
def equals (p q : Query) : Bool :=
  QueryFilter.equalLists p.filters q.filters && p.sort == q.sort

/-- A query as a value for transport; the sort keys only if there are any. -/
def wire (q : Query) : Value :=
  let filters : Value.Entries := [("filters", .list (q.filters.map QueryFilter.wire))]
  let sort : Value.Entries :=
    if q.sort.isEmpty then [] else [("sort", .list (q.sort.map SortKey.wire))]
  .object (filters ++ sort)

/-- The text of a moment in UTC to the millisecond, with `Z` as its zone.  A moment without a zone
is local time, whose offset is sought from the day before on. -/
def timestamp (now : Moment) : Except Fault Text := do
  if now.offset = none ∧ (now.date.addDays? (-1)).isNone then .error (.yearOutOfRange 0)
  let m ← now.toUtc
  return Text.ofChars (m.date.isoChars ++ ['T'] ++ m.time.secondChars ++
    '.' :: paddedDigits 3 (m.time.microsecond / 1000) ++ ['Z'])

/-- The query of a list of filters with the time at which it was made. -/
def payload (c : Catalog) (now : Moment) (filters : List Filter) : Except Fault Value := do
  let query ← ofFilters c filters
  let time ← timestamp now
  return .object [("query", query.wire), ("timestamp", .text time)]

end Query

end Winnow
