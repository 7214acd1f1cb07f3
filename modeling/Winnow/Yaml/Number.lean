import Winnow.Binary64.Reader
import Winnow.Text.Lowercase

/-!
# Numbers of YAML 1.1

Integers are written in binary, octal, decimal or hexadecimal or to the base sixty, numbers with a
point in decimal or to the base sixty.  Underscores do not count.

* `isInteger`, `isPointed`: whether a text without quotes is such a number.
* `integer`, `number`: the number that a text stands for.  They are read more generously than they
  are recognized, for a tag may say that another text is a number.
-/

namespace Winnow.Yaml

/-- Whether a character is a digit or an underscore. -/
def isDigitPart (c : Char) : Bool := c.isDigit || c = '_'

/-- Whether characters are digits and underscores after a digit. -/
def isDigitRun : List Char → Bool
  | [] => false
  | c :: cs => c.isDigit && cs.all isDigitPart

/-- Whether characters are one or two digits below sixty. -/
def isSixtieth : List Char → Bool
  | [d] => d.isDigit
  | [d, e] => '0' ≤ d && d ≤ '5' && e.isDigit
  | _ => false

/-- The characters behind a sign, if there is one. -/
def unsigned : List Char → List Char
  | '-' :: cs => cs
  | '+' :: cs => cs
  | cs => cs

/-- Whether a text is an integer. -/
def isInteger (cs : List Char) : Bool :=
  match unsigned cs with
  | ['0'] => true
  | '0' :: 'b' :: ds => !ds.isEmpty && ds.all fun d => d = '0' || d = '1' || d = '_'
  | '0' :: 'x' :: ds =>
    !ds.isEmpty && ds.all fun d => (CodePoint.scalar d).hexValue?.isSome || d = '_'
  | '0' :: ds => ds.all fun d => ('0' ≤ d && d ≤ '7') || d = '_'
  | c :: ds =>
    c.isDigit && match (c :: ds).splitOn ':' with
      | whole :: groups => isDigitRun whole && groups.all isSixtieth
      | [] => false
  | [] => false

/-- Whether the rest of a number is empty or an exponent with a sign. -/
def isExponent : List Char → Bool
  | [] => true
  | e :: s :: ds => (e = 'e' || e = 'E') && (s = '-' || s = '+') && !ds.isEmpty &&
      ds.all Char.isDigit
  | _ => false

/-- Whether characters behind a point are digits and perhaps an exponent. -/
def isFraction (cs : List Char) : Bool := isExponent (cs.dropWhile isDigitPart)

/-- The names of infinity, which may have a sign. -/
def infinityNames : List (List Char) := [".inf".toList, ".Inf".toList, ".INF".toList]

/-- The names of what is no number. -/
def nanNames : List (List Char) := [".nan".toList, ".NaN".toList, ".NAN".toList]

/-- Whether a text is a number with a point.  There is no sign where no digit precedes the point. -/
def isPointed (cs : List Char) : Bool :=
  infinityNames.contains (unsigned cs) || nanNames.contains cs ||
    match cs, (unsigned cs).splitOn '.' with
    | '.' :: d :: ds, _ => d.isDigit && isFraction ds
    | _, [before, fraction] =>
      match before.splitOn ':' with
      | [whole] => isDigitRun whole && isFraction fraction
      | whole :: groups =>
        isDigitRun whole && groups.all isSixtieth && fraction.all isDigitPart
      | [] => false
    | _, _ => false

/-- The text without underscores. -/
def withoutUnderscores (t : Text) : Text := t.filter (· ≠ .scalar '_')

/-- The value of a digit of any script in a base up to sixteen. -/
def digitIn? (base : Nat) (c : CodePoint) : Option Nat :=
  ((c.decimalValue?).or c.hexValue?).filter (· < base)

/-- The letter that may stand behind a zero before the digits in a base. -/
def baseLetter (base : Nat) : Char := if base = 2 then 'b' else if base = 8 then 'o' else 'x'

/-- A text without a zero and a letter that announce a base. -/
def withoutBase (base : Nat) : Text → Text
  | .scalar '0' :: .scalar c :: t =>
    if c.toLower = baseLetter base then t else .scalar '0' :: .scalar c :: t
  | t => t

/-- The integer of a numeral in a base of two, eight or sixteen.  Blanks at the ends, a sign and the
letter of the base are admitted. -/
def inBase (base : Nat) (t : Text) : Except Fault Int :=
  let (negative, digits) := Numeral.takeSign t.unpadded
  match (withoutBase base digits).mapM (digitIn? base) with
  | some (d :: ds) =>
    let n : Nat := (d :: ds).foldl (fun n d => n * base + d) 0
    .ok (if negative then -n else n)
  | _ => .error (.notAnInteger base t.quoted)

/-- The integer of a text without sign and underscores. -/
def magnitude (t : Text) : Except Fault Int :=
  match t with
  | [] => .error .emptyNumeral
  | [.scalar '0'] => .ok 0
  | .scalar '0' :: .scalar 'b' :: ds => inBase 2 ds
  | .scalar '0' :: .scalar 'x' :: ds => inBase 16 ds
  | .scalar '0' :: _ => inBase 8 t
  | _ => do
    let groups ← (Text.splitOn ":" t).mapM Numeral.toInt
    return groups.foldl (fun n d => n * 60 + d) 0

/-- The integer of a text. -/
def integer (t : Text) : Except Fault Int := do
  let (negative, digits) := Numeral.takeSign (withoutUnderscores t)
  let n ← magnitude digits
  return if negative then -n else n

/-- The sum of two numbers. -/
def sum (x y : Binary64) : Binary64 :=
  match x.units?, y.units? with
  | some m, some n => Binary64.ofRatio (m + n < 0) (m + n).natAbs Binary64.unitsInOne
  | some _, none => y
  | none, _ => x

/-- The number of a text, or why it is none. -/
def numberOf (t : Text) : Except Fault Binary64 :=
  match Binary64.ofText? t with
  | some x => .ok x
  | none => .error (.notANumber t.quoted)

/-- The largest number of groups whose places are numbers. -/
def groupLimit : Nat := 174

/-- The number of groups to the base sixty, the last one counting once.  Every step rounds. -/
def sexagesimal (groups : List Text) : Except Fault Binary64 := do
  let parts ← groups.mapM numberOf
  if groupLimit < groups.length then .error .outOfRange
  let add (place : Nat × Binary64) (x : Binary64) : Nat × Binary64 :=
    (place.1 * 60, sum place.2 (x.scale place.1 1))
  return (parts.reverse.foldl add (1, Binary64.zero)).2

/-- The number with the sign of a text. -/
def withSign (negative : Bool) (x : Binary64) : Binary64 :=
  match x with
  | .nan => .nan
  | .number sign rank => .number (sign != negative) rank

/-- The binary64 number of a text. -/
def number (t : Text) : Except Fault Binary64 :=
  let plain := (withoutUnderscores t).lower
  let (negative, digits) := Numeral.takeSign plain
  if plain.isEmpty then .error .emptyNumeral
  else if digits = (".inf" : Text) then .ok (Binary64.infinity negative)
  else if digits = (".nan" : Text) then .ok .nan
  else
    match Text.splitOn ":" digits with
    | [_] => (numberOf digits).map (withSign negative)
    | groups => (sexagesimal groups).map (withSign negative)

end Winnow.Yaml
