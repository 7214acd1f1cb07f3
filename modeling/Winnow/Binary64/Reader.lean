import Winnow.Binary64.Decimal
import Winnow.Numeral

/-!
# Reading binary64 numbers

`Binary64.ofText?` reads the whole of a text as a number.  Blanks at the ends, a sign, digits of any
script, single underscores between digits, a fraction, an exponent and the names of infinity and of
no number, in any case, are admitted.
-/

namespace Winnow.Binary64

/-- The characters without the underscores; nothing if one of them is not between two digits. -/
def joinDigits (before : Char) : List Char → Option (List Char)
  | [] => some []
  | '_' :: c :: cs =>
    if before.isDigit && c.isDigit then (joinDigits c cs).map (c :: ·) else none
  | c :: cs => if c = '_' then none else (joinDigits c cs).map (c :: ·)

/-- The digits at the beginning of a text and the rest. -/
def spanDigits (cs : List Char) : List Nat × List Char :=
  ((cs.takeWhile Char.isDigit).map (·.toNat - 0x30), cs.dropWhile Char.isDigit)

/-- The exponent at the beginning of a text, zero if there is none, and the rest. -/
def takeExponent : List Char → Option (Int × List Char)
  | [] => some (0, [])
  | c :: cs =>
    if c = 'e' ∨ c = 'E' then
      let (negative, unsigned) := match cs with
        | '-' :: ds => (true, ds)
        | '+' :: ds => (false, ds)
        | ds => (false, ds)
      let (ds, rest) := spanDigits unsigned
      if ds.isEmpty then none
      else
        let n : Int := Numeral.valueOf ds
        some (if negative then -n else n, rest)
    else some (0, c :: cs)

/-- The fraction digits at the beginning of a text and the rest. -/
def takeFraction : List Char → List Nat × List Char
  | '.' :: cs => spanDigits cs
  | cs => ([], cs)

/-- The decimal that a whole unsigned text stands for. -/
def toDecimal? (cs : List Char) : Option Decimal := do
  let (whole, afterWhole) := spanDigits cs
  let (fraction, afterFraction) := takeFraction afterWhole
  let (exponent, rest) ← takeExponent afterFraction
  if whole.isEmpty && fraction.isEmpty || !rest.isEmpty then none
  else some ⟨Numeral.valueOf (whole ++ fraction), exponent - fraction.length⟩

/-- The names of infinity, in lower case. -/
def infinityNames : List (List Char) := ["inf".toList, "infinity".toList]

/-- The number of a text without blanks at its ends. -/
def ofChars? (cs : List Char) : Option Binary64 := do
  let plain ← joinDigits ' ' cs
  let (negative, unsigned) := match plain with
    | '-' :: ds => (true, ds)
    | '+' :: ds => (false, ds)
    | ds => (false, ds)
  let name := unsigned.map Char.toLower
  if infinityNames.contains name then some (infinity negative)
  else if name = "nan".toList then some .nan
  else (toDecimal? unsigned).map (ofDecimal negative)

/-- The number of a text. -/
def ofText? (t : Text) : Option Binary64 := ofChars? (t.unpadded.map CodePoint.plainChar)

end Winnow.Binary64
