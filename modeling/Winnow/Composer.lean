import Winnow.Composer.Gesture
import Winnow.Evaluation
import Winnow.Query.Params
import Winnow.Store.Memory

/-!
# Composing a filter set

A composer edits a filter set by drag gestures and by direct changes.  The set is read from a store
when the composer is opened, and written back when it is applied.

* `Composer.drop`: a definition that is dropped on the surface becomes a filter, and a filter that
  is dropped on another one is moved right before it.  Anything else changes nothing.
* `Composer.apply`, `Composer.reset`: writing the set to the store.
* `Composer.incomplete`: the filters that lack a usable value.
-/

namespace Winnow

/-- What a composer takes from the settings and from the clock. -/
structure Surroundings where
  rules : Rules
  separator : Separator
  now : Moment

/-- A filter set, the gesture that is going on, and the store behind it. -/
structure Composer where
  set : FilterSet
  gesture : Gesture
  store : MemoryStore

namespace Composer

/-- The composer of a catalog on a store. -/
def onStore (c : Catalog) (rules : Rules) (tokens : Tokens) (store : MemoryStore) :
    Except Fault Composer := do
  return ⟨← FilterSet.hydrate c rules tokens store.load, .idle, store⟩

/-! ## Gestures -/

/-- Begins a drag. -/
def dragStart (c : Composer) (kind id : Value) : Except Fault Unit × Composer :=
  let (outcome, gesture) := c.gesture.start kind id
  (outcome, { c with gesture := gesture })

/-- Gives a drag up. -/
def cancel (c : Composer) : Composer := { c with gesture := .idle }

/-- What a drop does to the set: the filter that is composed, if one is, and the set. -/
def dropOn (set : FilterSet) (source : Option DragSource) (target : Option DropTarget)
    (id : Value) : Except Fault (Option Filter × FilterSet) :=
  match source, target with
  | some ⟨.available, definition⟩, some .surface => do
    let (f, set) ← set.compose definition
    return (some f, set)
  | some ⟨.active, moved⟩, some .filter =>
    .ok (none, if id.isVoid then set else (set.reorder moved id).2)
  | _, _ => .ok (none, set)

/-- Ends a drag over a target.  Nothing happens where no drag is going on. -/
def drop (c : Composer) (kind id : Value) : Except Fault (Option Filter) × Composer :=
  match c.gesture with
  | .idle => (.ok none, c)
  | .dragging source =>
    match DropTarget.ofValue kind with
    | .error fault => (.error fault, c.cancel)
    | .ok target =>
      match dropOn c.set source target id with
      | .error fault => (.error fault, c.cancel)
      | .ok (f, set) => (.ok f, { c.cancel with set := set })

/-! ## Direct changes -/

/-- Changes a filter. -/
def update (c : Composer) (rules : Rules) (id : Value) (p : Patch) :
    Except Fault (Option Filter × Composer) := do
  let (f, set) ← c.set.update rules id p
  return (f, { c with set := set })

/-- Takes a filter away. -/
def remove (c : Composer) (id : Value) : Option Filter × Composer :=
  let (f, set) := c.set.remove id
  (f, { c with set := set })

/-- Takes all filters away. -/
def clear (c : Composer) : Composer := { c with set := c.set.clear }

/-! ## The store -/

/-- Writes the set to the store; a set without a text leaves the store as it is. -/
def persist (c : Composer) : Except Fault Unit × Composer :=
  match c.set.serialize with
  | .error fault => (.error fault, c)
  | .ok t => (.ok (), { c with store := c.store.save t.utf8 })

/-- Writes the set to the store and logs its query. -/
def apply (c : Composer) (around : Surroundings) : Except Fault (List Text) × Composer :=
  let (outcome, c) := c.persist
  (outcome.bind fun _ =>
    Query.describe c.set.catalog around.separator around.now .payload c.set.filters, c)

/-- Takes all filters away, from the store too. -/
def reset (c : Composer) : Except Fault Unit × Composer := c.clear.persist

/-- Whether another composer on the store has an equal set. -/
def agrees (c : Composer) (rules : Rules) : Except Fault Bool := do
  let other ← onStore c.set.catalog rules c.set.tokens c.store
  return other.set.equals c.set

/-! ## Views -/

/-- Whether a filter has a definition but lacks a usable value. -/
def isIncomplete (c : Composer) (today : Date) (f : Filter) : Except Fault Bool :=
  match c.set.catalog.find? f.definitionId with
  | none => .ok false
  | some d => do return !(← d.kind.isComplete today f.operator f.value)

/-- The filters that lack a usable value. -/
def incomplete (c : Composer) (today : Date) : Except Fault (List Filter) :=
  c.set.filters.filterM (c.isIncomplete today)

/-- The query of the set. -/
def query (c : Composer) : Except Fault Query := Query.ofFilters c.set.catalog c.set.filters

/-- The flat parameters of the set. -/
def params (c : Composer) (separator : Separator) : Except Fault Value.Entries :=
  Query.paramsOfFilters c.set.catalog separator c.set.filters

/-- The query of the set with the time at which it was made. -/
def payload (c : Composer) (now : Moment) : Except Fault Value :=
  Query.payload c.set.catalog now c.set.filters

/-- The rows of a collection that satisfy the set, sorted by it. -/
def select (c : Composer) (today : Date) (rows : List Row) : Except Fault (List Row) :=
  c.set.evaluate today rows

end Composer

end Winnow
