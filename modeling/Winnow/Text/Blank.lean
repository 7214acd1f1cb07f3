import Winnow.Text

/-!
# Blank code points

`CodePoint.isBlank` holds of the code points of the bidirectional classes WS, B and S and of the
space separators, twenty-nine in all.  `Text.strip` removes them from both ends of a text.
`Text.unpadded` removes those that may surround a numeral, which are all but the four information
separators.  `Text.words` cuts a text at runs of blanks.
-/

namespace Winnow

/-- The ranges of blank code points. -/
def blankRanges : List (Nat × Nat) :=
  [(0x9, 0xD), (0x1C, 0x20), (0x85, 0x85), (0xA0, 0xA0), (0x1680, 0x1680),
   (0x2000, 0x200A), (0x2028, 0x2029), (0x202F, 0x202F), (0x205F, 0x205F), (0x3000, 0x3000)]

/-- Whether a code point counts as white space. -/
def CodePoint.isBlank (c : CodePoint) : Bool := c.inRanges blankRanges

/-- The range of the information separators. -/
def separatorRange : Nat × Nat := (0x1C, 0x1F)

/-- Whether a code point may stand before or after a numeral. -/
def CodePoint.padsNumeral (c : CodePoint) : Bool := c.isBlank && !c.inRanges [separatorRange]

namespace Text

/-- A text without the code points of a class at its two ends. -/
def trim (isOuter : CodePoint → Bool) (t : Text) : Text :=
  ((t.dropWhile isOuter).reverse.dropWhile isOuter).reverse

/-- A text without the blanks at its two ends. -/
def strip (t : Text) : Text := t.trim CodePoint.isBlank

/-- A text without what may surround a numeral. -/
def unpadded (t : Text) : Text := t.trim CodePoint.padsNumeral

/-- The runs of code points between blanks. -/
def words (t : Text) : List Text :=
  (t.splitOnP CodePoint.isBlank).filter fun word => !word.isEmpty

end Text

end Winnow
