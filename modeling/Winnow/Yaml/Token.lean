import Winnow.Numeral
import Winnow.Text.Encoding
import Winnow.Yaml.Scalar

/-!
# Tokens of YAML

* `Token`: the parts that a YAML text is cut into, with the marks that its indentation stands for.
* `nameText`, `tagText`, `directiveText`: reading the names of anchors, tags and directives.  Each
  gives what it read and the number of code points that it takes.
-/

namespace Winnow.Yaml

/-- A line that says how the next document is to be read. -/
inductive Directive where
  /-- The version that the document is written in. -/
  | version (major : Int)
  /-- The beginning of the tags that a handle stands for. -/
  | handle (handle beginning : Text)
  /-- A directive without a meaning. -/
  | reserved

/-- A part of a text.  The marks of blocks stand for the indentation of the lines. -/
inductive Token where
  | directive (d : Directive)
  | documentStart
  | documentEnd
  | blockSequence
  | blockMapping
  | blockEnd
  | flowSequence
  | flowSequenceEnd
  | flowMapping
  | flowMappingEnd
  | blockEntry
  | flowEntry
  | key
  | value
  | alias (name : Text)
  | anchor (name : Text)
  | tag (handle : Option Text) (suffix : Text)
  | scalar (t : Text) (isPlain : Bool)
  /-- The text ends here. -/
  | finish
  /-- The text cannot be cut into tokens beyond this place. -/
  | failed (fault : Fault)

/-! ## Names -/

/-- Whether a code point is a letter or a digit of ASCII. -/
def isAlphanumeric (c : CodePoint) : Bool := c.toNat < 0x80 && c.toChar.isAlphanum

/-- Whether a code point may stand in a name. -/
def isNamePart (c : CodePoint) : Bool := isAlphanumeric c || isAmong "-_" c

/-- The name at the beginning of a text, which the code points of a class may follow. -/
def nameText (mayFollow : CodePoint → Bool) (t : Text) : Except Fault Text :=
  let name := t.takeWhile isNamePart
  if name.isEmpty ∨ !endsOr mayFollow (t.drop name.length) then .error .documentToken else .ok name

/-- The name of an anchor at the beginning of a text. -/
def anchorText : Text → Except Fault Text := nameText fun c => isGap c || isAmong "?:,]\x7d%@\x60" c

/-! ## Tags -/

/-- Whether a code point may stand in the suffix of a tag. -/
def isTagPart (c : CodePoint) : Bool := isAlphanumeric c || isAmong "-;/?:@&=+$,_.!~*'()[]%" c

/-- A text after bytes in UTF-8 that escapes have named. -/
def withEscaped (escaped : Bytes) (t : Text) : Except Fault Text :=
  match Bytes.decodeUtf8 false escaped with
  | .ok s => .ok (s ++ t)
  | .error _ => .error .documentToken

/-- A text whose bytes may be escaped by a percent sign and two digits.  `escaped` are the bytes of
the escapes just before. -/
def unescape (escaped : Bytes) : Text → Except Fault Text
  | [] => withEscaped escaped []
  | .scalar '%' :: a :: b :: cs =>
    match a.hexValue?, b.hexValue? with
    | some m, some n => unescape (escaped ++ [UInt8.ofNat (m * 16 + n)]) cs
    | _, _ => .error .documentToken
  | c :: cs => do
    if c = .scalar '%' then .error .documentToken
    withEscaped escaped (c :: (← unescape [] cs))

/-- The suffix of a tag at the beginning of a text, and the number of its code points. -/
def suffixText (t : Text) : Except Fault (Text × Nat) := do
  let written := t.takeWhile isTagPart
  if written.isEmpty then .error .documentToken
  return (← unescape [] written, written.length)

/-- The handle at the beginning of a text: a name between exclamation marks, or a single one before
a space. -/
def handleText (t : Text) : Except Fault Text :=
  match t with
  | .scalar '!' :: cs =>
    let name := cs.takeWhile isNamePart
    if cs.head? = some (.scalar ' ') then .ok ("!" : Text)
    else if (cs.drop name.length).head? = some (.scalar '!') then
      .ok (t.take (name.length + 2))
    else .error .documentToken
  | _ => .error .documentToken

/-- The tag at the beginning of a text, which begins with an exclamation mark. -/
def tagText (t : Text) : Except Fault (Token × Nat) := do
  let ending (handle : Option Text) (suffix : Text) (width : Nat) : Except Fault (Token × Nat) :=
    if endsOr isSpacing (t.drop width) then .ok (.tag handle suffix, width)
    else .error .documentToken
  let behind := t.drop 1
  if behind.head? = some (.scalar '<') then
    let (suffix, n) ← suffixText (t.drop 2)
    if (t.drop (n + 2)).head? ≠ some (.scalar '>') then .error .documentToken
    ending none suffix (n + 3)
  else if endsOr isGap behind then ending none ("!" : Text) 1
  else
    let word := behind.takeWhile fun c => !isSpacing c
    let handle : Text ← if word.contains (.scalar '!') then handleText t else pure ("!" : Text)
    let (suffix, n) ← suffixText (t.drop handle.length)
    ending (some handle) suffix (handle.length + n)

/-! ## Directives -/

/-- The number of spaces at the beginning of a text. -/
def spaceWidth (t : Text) : Nat := (t.takeWhile (· = .scalar ' ')).length

/-- The number at the beginning of a text, and the number of its digits. -/
def versionNumber (t : Text) : Except Fault (Int × Nat) := do
  let ds := t.takeWhile fun c => c.toNat < 0x80 && c.isDecimal
  if ds.isEmpty then .error .documentToken
  return (← Numeral.toInt ds, ds.length)

/-- The version at the beginning of a text: two numbers with a point between them. -/
def versionText (t : Text) : Except Fault (Directive × Nat) := do
  let (major, m) ← versionNumber t
  if (t.drop m).head? ≠ some (.scalar '.') then .error .documentToken
  let (_, n) ← versionNumber (t.drop (m + 1))
  if !endsOr isSpacing (t.drop (m + 1 + n)) then .error .documentToken
  return (.version major, m + 1 + n)

/-- A handle at the beginning of a text and the beginning of the tags that it stands for. -/
def handleDirective (t : Text) : Except Fault (Directive × Nat) := do
  let handle ← handleText t
  let behind := t.drop handle.length
  if behind.head? ≠ some (.scalar ' ') then .error .documentToken
  let spaces := spaceWidth behind
  let (beginning, n) ← suffixText (behind.drop spaces)
  if !endsOr isSpacing (behind.drop (spaces + n)) then .error .documentToken
  return (.handle handle beginning, handle.length + spaces + n)

/-- The directive behind its percent sign, with the rest of its line. -/
def directiveText (t : Text) : Except Fault (Directive × Nat) := do
  let name ← nameText isSpacing t
  let behind := t.drop name.length
  let spaces := spaceWidth behind
  let (d, n) ←
    if name = ("YAML" : Text) then versionText (behind.drop spaces)
    else if name = ("TAG" : Text) then handleDirective (behind.drop spaces)
    else pure (.reserved, ((behind.drop spaces).takeWhile fun c => !isBreak c).length)
  let width := name.length + spaces + n
  return (d, width + (← lineRestWidth (t.drop width)))

end Winnow.Yaml
