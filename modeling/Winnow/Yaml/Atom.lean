import Winnow.Text.Encoding
import Winnow.Value.Literal

/-!
# Atoms

What a scalar of a document stands for: a value, or bytes.

* `Atom.literal`: an atom in literal notation.
* `Atom.isSame`: whether two atoms are one key.
-/

namespace Winnow.Yaml

/-- What a scalar stands for. -/
inductive Atom where
  | value (v : Value)
  | bytes (b : Bytes)

namespace Atom

instance : Inhabited Atom := ⟨.value .null⟩

/-- How a literal shows a byte, for a given quote. -/
def escapedByte (quote : Char) (b : UInt8) : Text :=
  if b.toNat < 0x80 then (CodePoint.scalar (Char.ofNat b.toNat)).escaped quote
  else Text.ofChars ('\\' :: 'x' :: hexDigits 2 b.toNat)

/-- Bytes as a literal between quotes, a character of ASCII for a byte where there is one. -/
def bytesLiteral (b : Bytes) : Text :=
  let quote := Text.quote (b.map fun c => .scalar (Char.ofNat c.toNat))
  [.scalar 'b', .scalar quote] ++ b.flatMap (escapedByte quote) ++ [.scalar quote]

/-- An atom in literal notation; it has none if it is an integer with too many digits. -/
def literal : Atom → Except Fault Text
  | .value v => v.literal
  | .bytes b => .ok (bytesLiteral b)

/-- The plain text of an atom: that of a text is the text itself. -/
def plainText : Atom → Except Fault Text
  | .value v => v.plainText
  | .bytes b => .ok (bytesLiteral b)

/-- Whether an atom is a given text. -/
def isText (t : Text) : Atom → Bool
  | .value (.text u) => t == u
  | _ => false

/-- Whether two atoms are one key: equal values, or both no number. -/
def isSame : Atom → Atom → Bool
  | .value (.float .nan), .value (.float .nan) => true
  | .value v, .value w => v.equals w
  | .bytes b, .bytes c => b == c
  | _, _ => false

end Atom

end Winnow.Yaml
