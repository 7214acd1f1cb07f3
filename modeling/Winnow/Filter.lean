import Winnow.Shape

/-!
# Filters

A filter binds an operator, a value and possibly a direction to a definition, which it names by id.

* `Filter.equals`: equality, with values compared as values are.
* `Filter.literal`: a filter in literal notation.
-/

namespace Winnow

/-- The direction of a filter: one of the vocabulary, or a text that was set by hand. -/
inductive Sorting where
  | by (d : Direction)
  | written (t : Text)
  deriving DecidableEq

/-- The direction that a value names. -/
def Direction.ofValue (v : Value) : Except Fault Direction :=
  match v with
  | .text t =>
    match Direction.ofText? t with
    | some d => .ok d
    | none => .error (.notAMember t.quoted "SortDirection")
  | _ => do .error (.notAMember (← v.literal) "SortDirection")

namespace Sorting

/-- The written form of a direction. -/
def word : Sorting → Text
  | .by d => d.word
  | .written t => t

/-- The direction of the vocabulary. -/
def direction : Sorting → Except Fault Direction
  | .by d => .ok d
  | .written t => Direction.ofValue (.text t)

end Sorting

/-- An operator, a value and possibly a direction, bound to a definition. -/
structure Filter where
  id : Text
  definitionId : Text
  operator : OperatorChoice
  value : Value
  sorting : Option Sorting

namespace Filter

/-- Equality of filters. -/
def equals (f g : Filter) : Bool :=
  f.id == g.id && f.definitionId == g.definitionId &&
    f.operator.value.equals g.operator.value && f.value.equals g.value &&
    f.sorting.map Sorting.word == g.sorting.map Sorting.word

/-- Equality of lists of filters, one by one. -/
def equalLists : List Filter → List Filter → Bool
  | [], [] => true
  | f :: fs, g :: gs => f.equals g && equalLists fs gs
  | _, _ => false

/-- Whether a value is the id of a filter. -/
def hasId (id : Value) (f : Filter) : Bool :=
  match id with
  | .text t => f.id == t
  | _ => false

/-- A member of a group of names, with its written form. -/
def memberLiteral (group name word : Text) : Text :=
  ("<" : Text) ++ group ++ ("." : Text) ++ name ++ (": " : Text) ++ word.quoted ++ (">" : Text)

/-- An operator in literal notation. -/
def operatorLiteral : OperatorChoice → Except Fault Text
  | .known o => .ok (memberLiteral "Operator" o.constantName o.word)
  | .other v => v.literal

/-- A direction in literal notation. -/
def sortingLiteral : Option Sorting → Text
  | none => "None"
  | some (.by d) => memberLiteral "SortDirection" d.constantName d.word
  | some (.written t) => t.quoted

/-- A filter in literal notation. -/
def literal (f : Filter) : Except Fault Text := do
  let operator ← operatorLiteral f.operator
  let value ← f.value.literal
  return applied "ActiveFilter"
    [("id=" : Text) ++ f.id.quoted, ("definition_id=" : Text) ++ f.definitionId.quoted,
      ("operator=" : Text) ++ operator, ("value=" : Text) ++ value,
      ("sort_direction=" : Text) ++ sortingLiteral f.sorting]

end Filter

end Winnow
