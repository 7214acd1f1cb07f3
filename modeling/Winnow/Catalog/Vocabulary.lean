import Winnow.Text

/-!
# Kinds, operators and directions

The fixed vocabulary of filters.  Each word has a written form, and `ofText?` reads it back.

* `FieldKind`: what sort of value a field holds.
* `Operator`: how a filter compares a field with its value, with a label for display.
* `Direction`: how a filter orders records.
-/

namespace Winnow

/-- The sort of value that a field holds. -/
inductive FieldKind where
  | text
  | number
  | date
  | boolean
  | array
  | select
  deriving DecidableEq, Repr

namespace FieldKind

/-- Every kind. -/
def all : List FieldKind := [.text, .number, .date, .boolean, .array, .select]

/-- The written form of a kind. -/
def word : FieldKind → Text
  | .text => "text"
  | .number => "number"
  | .date => "date"
  | .boolean => "boolean"
  | .array => "array"
  | .select => "select"

/-- The kind with a written form. -/
def ofText? (t : Text) : Option FieldKind := all.find? fun k => k.word == t

end FieldKind

/-- How a filter compares a field with its value. -/
inductive Operator where
  | equals
  | notEquals
  | contains
  | notContains
  | startsWith
  | endsWith
  | greaterThan
  | lessThan
  | greaterThanOrEqual
  | lessThanOrEqual
  | isIn
  | notIn
  | isTrue
  | isFalse
  | before
  | after
  | between
  deriving DecidableEq, Repr

namespace Operator

/-- Every operator. -/
def all : List Operator :=
  [.equals, .notEquals, .contains, .notContains, .startsWith, .endsWith, .greaterThan, .lessThan,
    .greaterThanOrEqual, .lessThanOrEqual, .isIn, .notIn, .isTrue, .isFalse, .before, .after,
    .between]

/-- The written form of an operator. -/
def word : Operator → Text
  | .equals => "equals"
  | .notEquals => "not_equals"
  | .contains => "contains"
  | .notContains => "not_contains"
  | .startsWith => "starts_with"
  | .endsWith => "ends_with"
  | .greaterThan => "greater_than"
  | .lessThan => "less_than"
  | .greaterThanOrEqual => "greater_than_or_equal"
  | .lessThanOrEqual => "less_than_or_equal"
  | .isIn => "in"
  | .notIn => "not_in"
  | .isTrue => "is_true"
  | .isFalse => "is_false"
  | .before => "before"
  | .after => "after"
  | .between => "between"

/-- The operator with a written form. -/
def ofText? (t : Text) : Option Operator := all.find? fun o => o.word == t

/-- The name of an operator as a constant. -/
def constantName : Operator → Text
  | .equals => "EQUALS"
  | .notEquals => "NOT_EQUALS"
  | .contains => "CONTAINS"
  | .notContains => "NOT_CONTAINS"
  | .startsWith => "STARTS_WITH"
  | .endsWith => "ENDS_WITH"
  | .greaterThan => "GREATER_THAN"
  | .lessThan => "LESS_THAN"
  | .greaterThanOrEqual => "GREATER_THAN_OR_EQUAL"
  | .lessThanOrEqual => "LESS_THAN_OR_EQUAL"
  | .isIn => "IN"
  | .notIn => "NOT_IN"
  | .isTrue => "IS_TRUE"
  | .isFalse => "IS_FALSE"
  | .before => "BEFORE"
  | .after => "AFTER"
  | .between => "BETWEEN"

/-- The label of an operator for display. -/
def label : Operator → Text
  | .equals => "Equals"
  | .notEquals => "Not Equals"
  | .contains => "Contains"
  | .notContains => "Does Not Contain"
  | .startsWith => "Starts With"
  | .endsWith => "Ends With"
  | .greaterThan => "Greater Than"
  | .lessThan => "Less Than"
  | .greaterThanOrEqual => "Greater Than or Equal"
  | .lessThanOrEqual => "Less Than or Equal"
  | .isIn => "In"
  | .notIn => "Not In"
  | .isTrue => "Is True"
  | .isFalse => "Is False"
  | .before => "Before"
  | .after => "After"
  | .between => "Between"

/-- Whether an operator takes a list of values. -/
def takesList : Operator → Bool
  | .isIn | .notIn | .between => true
  | _ => false

/-- Whether an operator takes no value. -/
def takesNothing : Operator → Bool
  | .isTrue | .isFalse => true
  | _ => false

end Operator

/-- How a filter orders records. -/
inductive Direction where
  | ascending
  | descending
  deriving DecidableEq, Repr

namespace Direction

/-- The written form of a direction. -/
def word : Direction → Text
  | .ascending => "asc"
  | .descending => "desc"

/-- The direction with a written form. -/
def ofText? (t : Text) : Option Direction :=
  if t = ("asc" : Text) then some .ascending
  else if t = ("desc" : Text) then some .descending
  else none

/-- The name of a direction as a constant. -/
def constantName : Direction → Text
  | .ascending => "ASC"
  | .descending => "DESC"

end Direction

end Winnow
