import Winnow.Catalog
import Winnow.Filter

/-!
# Filters as stored entries

A stored filter is an object with an id, a definition id, an operator and, where there are any, a
value and a direction.

* `Filter.entry`: the entry of a filter.
* `Filter.ofEntry`: the filter of an entry.  The older keys for the definition id and the direction
  count where the newer ones are missing.
* `Filter.resolve`: the filter of an entry for a catalog.  An operator that the definition does not
  allow and a value that its kind does not admit are replaced by the defaults.
-/

namespace Winnow.Filter

/-- The entry of a filter.  It fails at a direction outside the vocabulary. -/
def entry (f : Filter) : Except Fault Value := do
  let parts : Value.Entries :=
    [("id", .text f.id), ("definitionId", .text f.definitionId), ("operator", f.operator.value)]
  let value : Value.Entries := if f.value.isNull then [] else [("value", f.value)]
  let sorting : Value.Entries ← match f.sorting with
    | none => pure []
    | some s => do pure [("sortDirection", .text (← s.direction).word)]
  return .object (parts ++ value ++ sorting)

/-- The value of a key that must be there. -/
def required (key : Text) (entries : Value.Entries) : Except Fault Value :=
  match Value.find? key entries with
  | some v => .ok v
  | none => .error (.missingKey key)

/-- The operator of an entry. -/
def entryOperator (entries : Value.Entries) : Except Fault OperatorChoice :=
  let v := (Value.find? "operator" entries).getD .null
  if v.isHashable then .ok (.ofValue v) else .error .unhashable

/-- The direction of an entry. -/
def entrySorting (entries : Value.Entries) : Except Fault (Option Sorting) :=
  match (Value.find? "sortDirection" entries).orElse
      (fun _ => Value.find? "sortOrder" entries) with
  | none | some .null => .ok none
  | some v => do return some (.by (← Direction.ofValue v))

/-- The value that names the definition of an entry. -/
def entryDefinition (entries : Value.Entries) : Except Fault Value :=
  match Value.find? "definitionId" entries with
  | some v => .ok v
  | none => required "filterId" entries

/-- The filter of the parts of an entry. -/
def ofParts (entries : Value.Entries) : Except Fault Filter := do
  let definition ← entryDefinition entries
  let operator ← entryOperator entries
  let id ← (← required "id" entries).plainText
  let definitionId ← definition.plainText
  let sorting ← entrySorting entries
  return ⟨id, definitionId, operator, (Value.find? "value" entries).getD .null, sorting⟩

/-- The filter of an entry, which has to be an object. -/
def ofEntry (entry : Value) : Except Fault Filter :=
  match entry with
  | .object entries => ofParts entries
  | _ => .error .notAnEntry

/-- The filter with an operator and a value that its definition admits. -/
def repaired (rules : Rules) (d : Definition) (f : Filter) : Except Fault Filter := do
  let operator := (d.allowed? f.operator.value).getD d.defaultOperator
  let value := if ← d.kind.admits rules f.value then f.value.normalize
    else d.kind.defaultValue rules.today.isoText
  return { f with operator := .known operator, value := value }

/-- The filter of an entry for a catalog. -/
def resolve (c : Catalog) (rules : Rules) (entry : Value) : Except Fault Filter := do
  let f ← ofEntry entry
  match c.find? f.definitionId with
  | none => .error (.unresolvable f.definitionId)
  | some d => f.repaired rules d

end Winnow.Filter
