import Winnow.Fault
import Winnow.Text.Blank
import Winnow.Value

/-!
# Separators

The items of a list are joined with a separator, and a text is cut at it.

* `Separator.ofValue`: any value can be set as the separator.
* `Separator.join`, `Separator.isIn`, `Separator.cut`: what one is used for.  A value that is no
  text fails only here.
-/

namespace Winnow

/-- What the items of a list are joined with. -/
inductive Separator where
  | text (t : Text)
  /-- No separator: texts are cut at runs of blanks, and lists cannot be joined. -/
  | blanks
  | unusable
  deriving DecidableEq

namespace Separator

/-- The separator that a value is. -/
def ofValue : Value → Separator
  | .text t => .text t
  | .null => .blanks
  | _ => .unusable

/-- Joins texts; `texts` is looked at only if there is something to join them with. -/
def join (s : Separator) (texts : Except Fault (List Text)) : Except Fault Text :=
  match s with
  | .text t => texts.map (List.intercalate t)
  | _ => .error .notASeparator

/-- Whether a text holds the separator. -/
def isIn (s : Separator) (t : Text) : Except Fault Bool :=
  match s with
  | .text part => .ok (part.occursIn t)
  | _ => .error .unusableSetting

/-- Cuts a text. -/
def cut (s : Separator) (t : Text) : Except Fault (List Text) :=
  match s with
  | .text [] => .error .emptySeparator
  | .text (c :: cs) => .ok (Text.splitOn (c :: cs) t)
  | .blanks => .ok t.words
  | .unusable => .error .unusableSetting

end Separator

end Winnow
