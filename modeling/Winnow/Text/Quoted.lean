import Winnow.Text.Printable

/-!
# Quoted texts

`Text.quoted` writes a text as a literal between quotes: apostrophes, unless the text holds one and
no double quote.  The quote itself and the backslash are escaped, and so is every code point that
is not printable.
-/

namespace Winnow

/-- The digit of a value below sixteen, in lower case. -/
def hexDigit (n : Nat) : Char :=
  if n < 10 then Char.ofNat (0x30 + n) else Char.ofNat (0x57 + n)

/-- The last `width` hexadecimal digits of a number. -/
def hexDigits : (width n : Nat) → List Char
  | 0, _ => []
  | width + 1, n => hexDigits width (n / 16) ++ [hexDigit (n % 16)]

namespace CodePoint

/-- How a quoted text shows a code point, for a given quote. -/
def escaped (quote : Char) (c : CodePoint) : Text :=
  let escape (head : Char) (width : Nat) : Text :=
    Text.ofChars ('\\' :: head :: hexDigits width c.toNat)
  match c with
  | .scalar '\\' => Text.ofChars ['\\', '\\']
  | .scalar '\t' => Text.ofChars ['\\', 't']
  | .scalar '\n' => Text.ofChars ['\\', 'n']
  | .scalar '\r' => Text.ofChars ['\\', 'r']
  | _ =>
    if c = .scalar quote then Text.ofChars ['\\', quote]
    else if c.isPrintable then [c]
    else if c.toNat < 0x100 then escape 'x' 2
    else if c.toNat < 0x10000 then escape 'u' 4
    else escape 'U' 8

end CodePoint

namespace Text

/-- The quote for a text: an apostrophe, unless only a double quote avoids an escape. -/
def quote (t : Text) : Char :=
  if t.contains (.scalar '\'') && !t.contains (.scalar '"') then '"' else '\''

/-- The text as a literal between quotes. -/
def quoted (t : Text) : Text :=
  [.scalar t.quote] ++ t.flatMap (CodePoint.escaped t.quote) ++ [.scalar t.quote]

end Text

end Winnow
