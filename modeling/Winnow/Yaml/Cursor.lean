import Winnow.Text

/-!
# Places in a text of lines

Settings documents are read by lines and columns.

* `lineBreak?`: the code points that end a line, and what each stands for.
* `Cursor`: the rest of a text and the place where it begins; `Cursor.skip` moves on.
* `Gap`, `gap`: blanks and line breaks between two parts of a text.
* `isDocumentMark`: whether a line begins with the mark of a document's beginning or end.
-/

namespace Winnow.Yaml

/-- What a code point that ends a line stands for: the separators of lines and paragraphs stand for
themselves, the others for a line feed. -/
def lineBreak? (c : CodePoint) : Option CodePoint :=
  if c = .scalar '\n' ∨ c = .scalar '\x85' then some (.scalar '\n')
  else if c = .scalar '\u2028' ∨ c = .scalar '\u2029' then some c
  else none

/-- Whether a code point ends a line. -/
def isBreak (c : CodePoint) : Bool := (lineBreak? c).isSome

/-- Whether a code point is a blank within a line. -/
def isBlank (c : CodePoint) : Bool := c = .scalar ' ' || c = .scalar '\t'

/-- Whether a code point is a space or ends a line. -/
def isSpacing (c : CodePoint) : Bool := c = .scalar ' ' || isBreak c

/-- Whether a code point separates words. -/
def isGap (c : CodePoint) : Bool := isBlank c || isBreak c

/-- Whether a code point is one of the characters of a string. -/
def isAmong (characters : String) (c : CodePoint) : Bool := (characters : Text).contains c

/-- Whether a text ends or goes on with a code point of a class. -/
def endsOr (isMember : CodePoint → Bool) (t : Text) : Bool := t.head?.all isMember

/-- The mark of the encoding, which takes no column. -/
def byteOrderMark : CodePoint := .scalar '\uFEFF'

/-- Whether a text begins with the mark of a document's beginning or end, as a word. -/
def isDocumentMark (t : Text) : Bool :=
  (t.take 3 == ("---" : Text) || t.take 3 == ("..." : Text)) && endsOr isGap (t.drop 3)

/-- The rest of a text and the place where it begins. -/
structure Cursor where
  rest : Text
  index : Nat
  line : Nat
  column : Nat

namespace Cursor

/-- The cursor at the beginning of a text. -/
def start (t : Text) : Cursor := ⟨t, 0, 0, 0⟩

/-- The cursor behind one code point. -/
def step (p : Cursor) : Cursor :=
  match p.rest with
  | [] => p
  | c :: cs =>
    if isBreak c then ⟨cs, p.index + 1, p.line + 1, 0⟩
    else ⟨cs, p.index + 1, p.line, if c = byteOrderMark then p.column else p.column + 1⟩

/-- The cursor behind a number of code points. -/
def skip : Nat → Cursor → Cursor
  | 0, p => p
  | n + 1, p => skip n p.step

end Cursor

/-- Blanks and line breaks between two parts of a text. -/
structure Gap where
  /-- What the line breaks stand for. -/
  breaks : Text
  /-- The number of code points. -/
  width : Nat
  /-- The column behind the gap. -/
  column : Nat
  /-- The largest column that a line of the gap reaches. -/
  deepest : Nat
  /-- Whether a document mark follows. -/
  atMark : Bool

/-- The gap at the beginning of a text that begins at a column.  The blanks that belong to a gap may
depend on their column. -/
def gap (isMember : Nat → CodePoint → Bool) (column : Nat) : Text → Gap
  | [] => ⟨[], 0, column, column, false⟩
  | c :: cs =>
    match lineBreak? c with
    | some b =>
      let g := gap isMember 0 cs
      ⟨b :: g.breaks, g.width + 1, g.column, max column g.deepest, g.atMark⟩
    | none =>
      if isMember column c then
        let g := gap isMember (column + 1) cs
        { g with width := g.width + 1 }
      else ⟨[], 0, column, column, column = 0 && isDocumentMark (c :: cs)⟩

/-- Line breaks within a scalar: a single line feed becomes a blank, one before others is dropped.
-/
def folded (first : CodePoint) (more : Text) : Text :=
  if first ≠ .scalar '\n' then first :: more
  else if more.isEmpty then [.scalar ' ']
  else more

end Winnow.Yaml
