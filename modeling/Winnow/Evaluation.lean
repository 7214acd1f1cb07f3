import Winnow.Evaluation.Match
import Winnow.Evaluation.Order
import Winnow.Filter.Bound
import Winnow.FilterSet

/-!
# Evaluation

Filters are applied to a collection of records.  Filters whose definition is not in the catalog take
no part, and a filter that fails on a record is not satisfied by it.

* `Evaluation.select`: the rows that satisfy every filter, in their order.
* `Evaluation.arrange`: the rows sorted by the filters that have a direction.
* `FilterSet.evaluate`: selection and then arrangement.
-/

namespace Winnow

namespace Evaluation

/-- Whether a record satisfies a filter; it does not where the filter fails. -/
def satisfies (today : Date) (r : Record) (f : Filter × Definition) : Bool :=
  match f.1.accepts today f.2 r with
  | .ok b => b
  | .error _ => false

/-- The rows that satisfy every filter. -/
def select (today : Date) (c : Catalog) (filters : List Filter) (rows : List Row) : List Row :=
  rows.filter fun row => (c.bind filters).all (satisfies today row.record)

/-- The sort key of a filter, if it has a direction. -/
def sortKey? (f : Filter × Definition) : Except Fault (Option SortKey) :=
  match f.1.sorting with
  | none => .ok none
  | some s => do return some ⟨f.2.field, ← s.direction⟩

/-- The sort keys of the filters, in their order. -/
def sortKeys (c : Catalog) (filters : List Filter) : Except Fault (List SortKey) := do
  return (← (c.bind filters).mapM sortKey?).filterMap id

/-- The rows sorted by the filters that have a direction. -/
def arrange (today : Date) (c : Catalog) (filters : List Filter) (rows : List Row) :
    Except Fault (List Row) := do
  Row.sort today (← sortKeys c filters) rows

/-- Selection and then arrangement. -/
def run (today : Date) (c : Catalog) (filters : List Filter) (rows : List Row) :
    Except Fault (List Row) :=
  arrange today c filters (select today c filters rows)

end Evaluation

namespace FilterSet

/-- The rows of a collection that satisfy a set, sorted by it. -/
def evaluate (today : Date) (s : FilterSet) (rows : List Row) : Except Fault (List Row) :=
  Evaluation.run today s.catalog s.filters rows

end FilterSet

end Winnow
