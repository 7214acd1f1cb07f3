import Winnow.Catalog.Vocabulary
import Winnow.Value.Literal

/-!
# Definitions

A definition describes one field that records can be filtered by.  Its default operator is one of
the operators that it allows, and a selection has options to select from; both are part of the type.

* `Definition.of`: the definition of given parts, or the rule that they break.
* `Definition.allows`: whether a value names an operator that a definition allows.
* `Definition.describe`: a definition for display.
-/

namespace Winnow

/-- The description of a field that records can be filtered by. -/
structure Definition where
  id : Text
  label : Text
  description : Text
  kind : FieldKind
  /-- The path of the field in a record. -/
  field : Text
  /-- The operators that may be used, in the order of display. -/
  operators : List Operator
  /-- The operator of a new filter. -/
  defaultOperator : Operator
  /-- The values to select from. -/
  options : Option (List Text)
  default_allowed : defaultOperator ∈ operators
  options_given : kind = .select → options.getD [] ≠ []

/-- The operator that a value names. -/
def Operator.named (v : Value) : Except Fault Operator :=
  match v.text?.bind Operator.ofText? with
  | some o => .ok o
  | none => do .error (.notAMember (← v.literal) "Operator")

/-- The kind that a value names. -/
def FieldKind.named (v : Value) : Except Fault FieldKind :=
  match v.text?.bind FieldKind.ofText? with
  | some k => .ok k
  | none => do .error (.notAMember (← v.literal) "FieldKind")

namespace Definition

/-- The definition of given parts. -/
def of (id label description : Text) (kind : FieldKind) (field : Text) (operators : List Operator)
    (defaultOperator : Operator) (options : Option (List Text)) : Except Fault Definition :=
  if member : defaultOperator ∈ operators then
    if given : kind = .select → options.getD [] ≠ [] then
      .ok ⟨id, label, description, kind, field, operators, defaultOperator, options, member,
        given⟩
    else .error (.optionsMissing id)
  else .error (.defaultNotAllowed defaultOperator.word id)

/-- The operator that a value names, if the definition allows it. -/
def allowed? (d : Definition) (v : Value) : Option Operator :=
  match v with
  | .text t => (Operator.ofText? t).filter fun o => d.operators.contains o
  | _ => none

/-- Whether a value names an operator that the definition allows. -/
def allows (d : Definition) (v : Value) : Bool := (d.allowed? v).isSome

/-- A definition for display. -/
def describe (d : Definition) : Value :=
  let parts : Value.Entries :=
    [("id", .text d.id), ("label", .text d.label), ("description", .text d.description),
      ("kind", .text d.kind.word), ("field", .text d.field),
      ("allowedOperators", .list (d.operators.map fun o => .text o.word)),
      ("defaultOperator", .text d.defaultOperator.word),
      ("operatorLabels", .ofEntries (d.operators.map fun o => (o.word, .text o.label)))]
  let options : Value.Entries := match d.options with
    | some options => [("options", .list (options.map .text))]
    | none => []
  .object (parts ++ options)

end Definition

end Winnow
