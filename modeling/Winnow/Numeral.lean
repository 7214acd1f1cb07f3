import Winnow.Fault
import Winnow.Text.Blank
import Winnow.Text.Digit
import Winnow.Text.Quoted

/-!
# Decimal numerals of integers

* `Numeral.ofInt`: the decimal text of an integer.  Integers with more than `digitLimit` digits are
  refused.
* `Numeral.toInt`: the integer of a numeral.  Blanks at the ends, a sign, digits of any script and
  single underscores between digits are admitted; the digit limit holds here too.
-/

namespace Winnow.Numeral

/-- The largest number of decimal digits that is converted to or from text. -/
def digitLimit : Nat := 4300

/-- The decimal digits of a natural number. -/
def digits (n : Nat) : Text := Text.ofChars (Nat.toDigits 10 n)

/-- The decimal text of an integer of any size. -/
def ofIntUnlimited (n : Int) : Text :=
  if n < 0 then .scalar '-' :: digits n.natAbs else digits n.natAbs

/-- The decimal text of an integer. -/
def ofInt (n : Int) : Except Fault Text :=
  if (digits n.natAbs).length > digitLimit then .error (.digitLimit none)
  else .ok (ofIntUnlimited n)

/-- The number that a list of decimal digits stands for. -/
def valueOf (ds : List Nat) : Nat := ds.foldl (fun n d => 10 * n + d) 0

/-- The digits at the beginning of a text, after a first digit, and the rest; nothing if an
underscore stands elsewhere than between two digits. -/
def moreDigits : Text → Option (List Nat × Text)
  | [] => some ([], [])
  | .scalar '_' :: c :: cs =>
    match c.decimalValue? with
    | some d => (moreDigits cs).map fun r => (d :: r.1, r.2)
    | none => none
  | c :: cs =>
    match c.decimalValue? with
    | some d => (moreDigits cs).map fun r => (d :: r.1, r.2)
    | none => if c = .scalar '_' then none else some ([], c :: cs)

/-- The run of digits at the beginning of a text and the rest; nothing without a digit. -/
def digitRun : Text → Option (List Nat × Text)
  | [] => none
  | c :: cs =>
    match c.decimalValue? with
    | some d => (moreDigits cs).map fun r => (d :: r.1, r.2)
    | none => none

/-- Whether a text begins with a minus sign, and the text after its sign. -/
def takeSign : Text → Bool × Text
  | .scalar '-' :: cs => (true, cs)
  | .scalar '+' :: cs => (false, cs)
  | cs => (false, cs)

/-- The integer of a numeral. -/
def toInt (t : Text) : Except Fault Int :=
  let (negative, unsigned) := takeSign t.unpadded
  match digitRun unsigned with
  | none => .error (.notAnInteger 10 t.quoted)
  | some (ds, rest) =>
    if ds.length > digitLimit then .error (.digitLimit (some ds.length))
    else if rest ≠ [] then .error (.notAnInteger 10 t.quoted)
    else .ok (if negative then -(valueOf ds : Int) else valueOf ds)

end Winnow.Numeral
