import Winnow.Binary64.Reader
import Winnow.Value

/-!
# The tokens of a JSON text

`Json.tokens` cuts a text into tokens and notes the place of each.  Reading ends at the first place
where no token begins; the last token says so, or marks the end of the text.

Besides the numbers of the standard, `NaN`, `Infinity` and `-Infinity` are admitted.  Strings may
hold any code point but the control characters, and a pair of escaped surrogates is one code point.
-/

namespace Winnow.Json

/-- Why a string is no token, with the place relative to its opening quote. -/
structure BadString where
  reason : Text
  place : Nat

/-- A token. -/
inductive Token where
  | openArray
  | closeArray
  | openObject
  | closeObject
  | comma
  | colon
  | string (t : Text)
  | plain (v : Value)
  | badString (why : BadString)
  /-- An integer with more digits than are converted. -/
  | longInteger (digits : Nat)
  /-- No token begins here. -/
  | unknown
  /-- The text ends here. -/
  | finish

/-- The blanks between tokens. -/
def isBlank (c : CodePoint) : Bool :=
  c = .scalar ' ' || c = .scalar '\t' || c = .scalar '\n' || c = .scalar '\r'

/-! ## Strings -/

/-- The number of four hexadecimal digits at the beginning of a text. -/
def hexUnit? : Text → Option Nat
  | a :: b :: c :: d :: _ => do
    return (((← a.hexValue?) * 16 + (← b.hexValue?)) * 16 + (← c.hexValue?)) * 16 + (← d.hexValue?)
  | _ => none

/-- What an escape of one letter stands for. -/
def letterEscape? (c : CodePoint) : Option CodePoint :=
  match c with
  | .scalar '"' => some (.scalar '"')
  | .scalar '\\' => some (.scalar '\\')
  | .scalar '/' => some (.scalar '/')
  | .scalar 'b' => some (.scalar '\x08')
  | .scalar 'f' => some (.scalar '\x0c')
  | .scalar 'n' => some (.scalar '\n')
  | .scalar 'r' => some (.scalar '\r')
  | .scalar 't' => some (.scalar '\t')
  | _ => none

/-- Whether a code unit is the first of a surrogate pair. -/
def isLeadUnit (unit : Nat) : Bool := 0xD800 ≤ unit && unit < 0xDC00

/-- Whether a code unit is the second of a surrogate pair. -/
def isTrailUnit (unit : Nat) : Bool := 0xDC00 ≤ unit && unit < 0xE000

/-- The code point of a number below `0x110000`. -/
def codePoint (n : Nat) : CodePoint := (CodePoint.ofNat? n).getD default

/-- The reason against a malformed numeric escape. -/
def badEscape : Text := "Invalid \\uXXXX escape"

/-- The code point of a numeric escape and the number of code points after the letter `u` that it
takes.  The text is what follows that letter.  A second escape belongs to the same code point if
both make a surrogate pair; it is looked at only if the text goes on after it.  The failure is the
number of code points to the letter of the malformed escape. -/
def numericEscape? (t : Text) : Except Nat (CodePoint × Nat) :=
  if (t.drop 4).isEmpty then .error 0
  else
    match hexUnit? t with
    | none => .error 0
    | some lead =>
      match t.drop 4 with
      | .scalar '\\' :: .scalar 'u' :: second =>
        if isLeadUnit lead ∧ ¬(second.drop 4).isEmpty then
          match hexUnit? second with
          | none => .error 6
          | some trail =>
            if isTrailUnit trail then
              .ok (codePoint (0x10000 + (lead - 0xD800) * 0x400 + (trail - 0xDC00)), 10)
            else .ok (codePoint lead, 4)
        else .ok (codePoint lead, 4)
      | _ => .ok (codePoint lead, 4)

/-- Reads a string after its opening quote: the text and the number of code points up to and with
the closing quote.  `place` is the number of code points read since the opening quote, `skip` how
many of them still belong to an escape, and `t` the text so far, in reverse. -/
def scanString (place skip : Nat) (t : Text) : Text → Except BadString (Text × Nat)
  | [] => .error ⟨"Unterminated string starting at", 0⟩
  | c :: cs =>
    match skip with
    | skip + 1 => scanString (place + 1) skip t cs
    | 0 =>
      if c = .scalar '"' then .ok (t.reverse, place + 1)
      else if c = .scalar '\\' then
        match cs with
        | [] => .error ⟨"Unterminated string starting at", 0⟩
        | .scalar 'u' :: after =>
          match numericEscape? after with
          | .error shift => .error ⟨badEscape, place + 1 + shift⟩
          | .ok (e, n) => scanString (place + 1) (n + 1) (e :: t) cs
        | letter :: _ =>
          match letterEscape? letter with
          | some e => scanString (place + 1) 1 (e :: t) cs
          | none => .error ⟨"Invalid \\escape", place⟩
      else if c.toNat < 0x20 then .error ⟨"Invalid control character at", place⟩
      else scanString (place + 1) 0 (c :: t) cs

/-! ## Numbers -/

/-- Whether a code point is an ASCII digit. -/
def isDigit (c : CodePoint) : Bool := 0x30 ≤ c.toNat && c.toNat ≤ 0x39

/-- The digits at the beginning of a text. -/
def leadingDigits (t : Text) : Text := t.takeWhile isDigit

/-- The whole part of a number: one zero, or digits that do not begin with one. -/
def wholePart (t : Text) : Text :=
  match t with
  | .scalar '0' :: _ => [.scalar '0']
  | _ => leadingDigits t

/-- The fraction at the beginning of a text, with its point. -/
def fractionPart (t : Text) : Text :=
  match t with
  | .scalar '.' :: cs => if (leadingDigits cs).isEmpty then [] else .scalar '.' :: leadingDigits cs
  | _ => []

/-- The sign at the beginning of an exponent. -/
def exponentSign (t : Text) : Text :=
  match t with
  | .scalar '-' :: _ => [.scalar '-']
  | .scalar '+' :: _ => [.scalar '+']
  | _ => []

/-- The exponent at the beginning of a text, with its letter. -/
def exponentPart (t : Text) : Text :=
  match t with
  | e :: cs =>
    if e = .scalar 'e' ∨ e = .scalar 'E' then
      let ds := leadingDigits (cs.drop (exponentSign cs).length)
      if ds.isEmpty then [] else e :: exponentSign cs ++ ds
    else []
  | [] => []

/-- The integer of an ASCII numeral without a sign. -/
def wholeValue (ds : Text) : Nat := Numeral.valueOf (ds.map fun c => c.toNat - 0x30)

/-- The number at the beginning of a text, and the number of code points that it takes. -/
def scanNumber (t : Text) : Token × Nat :=
  let minus : Text := if t.head? = some (.scalar '-') then [.scalar '-'] else []
  let whole := wholePart (t.drop minus.length)
  if whole.isEmpty then (.unknown, 0)
  else
    let integer := minus ++ whole
    let fraction := fractionPart (t.drop integer.length)
    let exponent := exponentPart (t.drop (integer ++ fraction).length)
    let number := integer ++ fraction ++ exponent
    if fraction.isEmpty ∧ exponent.isEmpty then
      if whole.length > Numeral.digitLimit then (.longInteger whole.length, number.length)
      else
        let n : Int := wholeValue whole
        (.plain (.int (if minus.isEmpty then n else -n)), number.length)
    else (.plain (.float ((Binary64.ofText? number).getD .nan)), number.length)

/-! ## Tokens -/

/-- The words that are tokens, with their values. -/
def words : List (Text × Value) :=
  [("null", .null), ("true", .bool true), ("false", .bool false), ("NaN", .float .nan),
    ("Infinity", .float (Binary64.infinity false)), ("-Infinity", .float (Binary64.infinity true))]

/-- The token at the beginning of a text that does not begin with a blank, and the number of code
points that it takes. -/
def scanToken (t : Text) : Token × Nat :=
  match t with
  | [] => (.finish, 0)
  | .scalar '[' :: _ => (.openArray, 1)
  | .scalar ']' :: _ => (.closeArray, 1)
  | .scalar '\x7b' :: _ => (.openObject, 1)
  | .scalar '\x7d' :: _ => (.closeObject, 1)
  | .scalar ',' :: _ => (.comma, 1)
  | .scalar ':' :: _ => (.colon, 1)
  | .scalar '"' :: cs =>
    match scanString 1 0 [] cs with
    | .ok (s, n) => (.string s, n)
    | .error why => (.badString why, 0)
  | _ =>
    match words.find? fun w => w.1.isPrefixOf t with
    | some w => (.plain w.2, w.1.length)
    | none => scanNumber t

/-- A token and the number of code points before it. -/
structure Placed where
  place : Nat
  token : Token

/-- The tokens of the rest of a text that begins at a place; `skip` code points of it belong to the
token before. -/
def tokensFrom (place skip : Nat) : Text → List Placed
  | [] => [⟨place, .finish⟩]
  | c :: cs =>
    match skip with
    | skip + 1 => tokensFrom (place + 1) skip cs
    | 0 =>
      if isBlank c then tokensFrom (place + 1) 0 cs
      else
        match scanToken (c :: cs) with
        | (token, n + 1) => ⟨place, token⟩ :: tokensFrom (place + 1) n cs
        | (token, 0) => [⟨place, token⟩]

/-- The tokens of a text. -/
def tokens (t : Text) : List Placed := tokensFrom 0 0 t

end Winnow.Json
