import Winnow.Fault
import Winnow.Text.Digit
import Winnow.Yaml.Cursor

/-!
# The text of scalars

A scalar is written without quotes, between quotes or as a block of lines.

* `quotedText`: a scalar between quotes.  Only double quotes know escapes.
* `plainText`: a scalar without quotes.  It ends before a comment, before a colon that makes it a
  key, and where a line is not indented; between brackets it also ends at them.
* `blockText`: a block of lines behind a bar or an arrow; behind an arrow its lines are joined.

Each gives the text and the number of code points that it takes.
-/

namespace Winnow.Yaml

/-! ## Between quotes -/

/-- What an escape of one letter stands for. -/
def letterEscape? (c : Char) : Option Char :=
  [('0', '\x00'), ('a', '\x07'), ('b', '\x08'), ('t', '\t'), ('\t', '\t'), ('n', '\n'),
    ('v', '\x0b'), ('f', '\x0c'), ('r', '\r'), ('e', '\x1b'), (' ', ' '), ('"', '"'), ('/', '/'),
    ('\\', '\\'), ('N', '\x85'), ('_', '\xa0'), ('L', '\u2028'), ('P', '\u2029')].lookup c

/-- The number of hexadecimal digits after the letter of a numeric escape. -/
def numericWidth? (c : Char) : Option Nat := [('x', 2), ('u', 4), ('U', 8)].lookup c

/-- The code point of a numeric escape with a number of digits. -/
def numericEscape (width : Nat) (t : Text) : Except Fault CodePoint :=
  match (t.take width).mapM CodePoint.hexValue? with
  | some ds =>
    if ds.length < width then .error .documentToken
    else
      let n := ds.foldl (fun n d => n * 16 + d) 0
      match CodePoint.ofNat? n with
      | some c => .ok c
      | none => .error (if n < Nat.pow 2 31 then .notACodePoint else .outOfRange)
  | none => .error .documentToken

/-- The blanks at the beginning of lines between quotes. -/
def quotedGap : Text → Gap := gap (fun _ c => isBlank c) 0

/-- What an escape stands for, given the text behind its backslash, and the number of code points
behind the backslash.  An escaped line break joins two lines. -/
def escape (t : Text) : Except Fault (Text × Nat) :=
  match t with
  | [] => .error .documentToken
  | c :: cs =>
    match letterEscape? c.toChar, numericWidth? c.toChar with
    | some e, _ => .ok ([.scalar e], 1)
    | none, some width => do return ([← numericEscape width cs], width + 1)
    | none, none =>
      let g := quotedGap cs
      if ¬isBreak c ∨ g.atMark then .error .documentToken else .ok (g.breaks, g.width + 1)

/-- What blanks and line breaks between quotes stand for, and the number of code points. -/
def quotedSpacing (t : Text) : Except Fault (Text × Nat) :=
  let blanks := t.takeWhile isBlank
  match t.drop blanks.length with
  | [] => .error .documentToken
  | c :: cs =>
    match lineBreak? c with
    | none => .ok (blanks, blanks.length)
    | some b =>
      let g := quotedGap cs
      if g.atMark then .error .documentToken
      else .ok (folded b g.breaks, blanks.length + 1 + g.width)

/-- Reads a scalar after its opening quote: the text and the number of code points up to and with
the closing quote.  `skip` code points are already read.  In single quotes, two quotes stand for
one. -/
def quotedText (double : Bool) (skip : Nat) : Text → Except Fault (Text × Nat)
  | [] => .error .documentToken
  | c :: cs =>
    let before (part : Text) (more : Text × Nat) : Text × Nat := (part ++ more.1, more.2 + 1)
    match skip with
    | skip + 1 => do return before [] (← quotedText double skip cs)
    | 0 =>
      if c = .scalar (if double then '"' else '\'') then
        if ¬double ∧ cs.head? = some c then do return before [c] (← quotedText double 1 cs)
        else .ok ([], 1)
      else if double ∧ c = .scalar '\\' then do
        let (part, n) ← escape cs
        return before part (← quotedText double n cs)
      else if isGap c then do
        let (part, n) ← quotedSpacing (c :: cs)
        return before part (← quotedText double (n - 1) cs)
      else do return before [c] (← quotedText double 0 cs)

/-! ## Without quotes -/

/-- Whether a scalar without quotes ends at a code point, given the text behind it. -/
def endsPlain (inFlow : Bool) (c : CodePoint) (after : Text) : Bool :=
  isGap c || (inFlow && isAmong ",?[]\x7b\x7d" c) ||
    (c = .scalar ':' && endsOr (fun d => isGap d || (inFlow && isAmong ",[]\x7b\x7d" d)) after)

/-- The beginning of a scalar without quotes, up to a blank. -/
def plainRun (inFlow : Bool) : Text → Text
  | [] => []
  | c :: cs => if endsPlain inFlow c cs then [] else c :: plainRun inFlow cs

/-- Whether a scalar without quotes can go on with a text. -/
def continuesPlain (inFlow : Bool) (t : Text) : Bool :=
  t.head? != some (.scalar '#') && !(plainRun inFlow t).isEmpty

/-- A scalar without quotes. -/
structure Plain where
  text : Text
  /-- The number of code points, with those of the gap behind it. -/
  width : Nat
  /-- Whether a line ends in the gap behind it. -/
  broken : Bool

/-- Reads a scalar without quotes whose lines after the first begin at a column or to the right of
it. -/
def plainText (inFlow : Bool) (indent : Nat) : (bound : Nat) → Text → Plain
  | 0, _ => ⟨[], 0, false⟩
  | bound + 1, t =>
    let run := plainRun inFlow t
    let after := t.drop run.length
    let spaces := after.takeWhile (· = .scalar ' ')
    let goesOn (part : Text) (width : Nat) : Plain :=
      let p := plainText inFlow indent bound (after.drop width)
      ⟨run ++ part ++ p.text, run.length + width + p.width, p.broken⟩
    let next := after.drop spaces.length
    match next.head?.bind lineBreak? with
    | none =>
      if spaces.isEmpty ∨ !continuesPlain inFlow next then ⟨run, run.length + spaces.length, false⟩
      else goesOn spaces spaces.length
    | some b =>
      let g := gap (fun _ c => c = .scalar ' ') 0 (next.drop 1)
      let width := spaces.length + 1 + g.width
      if g.atMark ∨ (!inFlow ∧ g.column < indent) ∨ !continuesPlain inFlow (after.drop width) then
        ⟨run, run.length + width, true⟩
      else goesOn (folded b g.breaks) width

/-! ## Blocks of lines -/

/-- What becomes of the line breaks at the end of a block. -/
inductive Chomping where
  /-- The last line keeps its break, empty lines are dropped. -/
  | clip
  /-- All are dropped. -/
  | strip
  /-- All are kept. -/
  | keep

/-- The indicator of a treatment of the last line breaks. -/
def chomping? (c : CodePoint) : Option Chomping :=
  if c = .scalar '+' then some .keep else if c = .scalar '-' then some .strip else none

/-- The indicator of an additional indentation; zero is none. -/
def indentation? (c : CodePoint) : Except Fault (Option Nat) :=
  if 0x31 ≤ c.toNat ∧ c.toNat ≤ 0x39 then .ok (some (c.toNat - 0x30))
  else if c = .scalar '0' then .error .documentToken
  else .ok none

/-- The indicators behind the bar of a block, in any order. -/
def blockHeader (t : Text) : Except Fault (Chomping × Option Nat × Nat) := do
  match t with
  | [] => return (.clip, none, 0)
  | c :: cs =>
    match chomping? c, ← indentation? c with
    | some chomping, _ =>
      match cs with
      | [] => return (chomping, none, 1)
      | d :: _ =>
        match ← indentation? d with
        | some n => return (chomping, some n, 2)
        | none => return (chomping, none, 1)
    | none, some n =>
      match cs.head?.bind chomping? with
      | some chomping => return (chomping, some n, 2)
      | none => return (.clip, some n, 1)
    | none, none => return (.clip, none, 0)

/-- The number of code points of the rest of a line that may hold a comment, with its line break.
Behind the spaces the text is `t`. -/
def commentWidth (t : Text) : Except Fault Nat :=
  let comment := if t.head? = some (.scalar '#') then t.takeWhile fun c => !isBreak c else []
  match t.drop comment.length with
  | [] => .ok comment.length
  | c :: _ => if isBreak c then .ok (comment.length + 1) else .error .documentToken

/-- The number of code points of the rest of a line without content. -/
def lineRestWidth (t : Text) : Except Fault Nat := do
  let spaces := t.takeWhile (· = .scalar ' ')
  return spaces.length + (← commentWidth (t.drop spaces.length))

/-- The lines of a block: their text, their line breaks at the end and the number of code points. -/
structure Block where
  text : Text
  /-- The break of the last line. -/
  last : Text
  /-- The breaks of the empty lines at the end. -/
  breaks : Text
  width : Nat

/-- Reads the lines of a block with an indentation, given the gap before the next line.  The lines
of a folded block are joined where neither begins with a blank. -/
def blockLines (joins : Bool) (indent : Nat) : (bound : Nat) → Gap → Text → Block
  | 0, g, _ => ⟨[], [], g.breaks, g.width⟩
  | bound + 1, g, t =>
    let here := t.drop g.width
    if g.column ≠ indent ∨ here.isEmpty then ⟨[], [], g.breaks, g.width⟩
    else
      let line := here.takeWhile fun c => !isBreak c
      let after := here.drop line.length
      let feed : Text := (after.head?.bind lineBreak?).toList
      let rest := after.drop 1
      let behind := gap (fun column c => column < indent && c = .scalar ' ') 0 rest
      let next := rest.drop behind.width
      let width := g.width + line.length + feed.length
      if feed.isEmpty ∨ behind.column ≠ indent ∨ next.isEmpty then
        ⟨g.breaks ++ line, feed, behind.breaks, width + behind.width⟩
      else
        let joined := joins && feed == ("\n" : Text) && !(here.head?.any isBlank) &&
          !(next.head?.any isBlank)
        let between : Text :=
          if !joined then feed else if behind.breaks.isEmpty then [.scalar ' '] else []
        let b := blockLines joins indent bound behind rest
        ⟨g.breaks ++ line ++ between ++ b.text, b.last, b.breaks, width + b.width⟩

/-- Reads a block after its bar.  `margin` is the least indentation that it can have. -/
def blockText (joins : Bool) (margin : Nat) (t : Text) : Except Fault (Text × Nat) := do
  let (chomping, extra, n) ← blockHeader t
  if !endsOr isSpacing (t.drop n) then .error .documentToken
  let header := n + (← lineRestWidth (t.drop n))
  let rest := t.drop header
  let least := max margin 1
  let detected := gap (fun _ c => c = .scalar ' ') 0 rest
  let (indent, g) := match extra with
    | none => (max least detected.deepest, detected)
    | some extra =>
      let indent := least + extra - 1
      (indent, gap (fun column c => column < indent && c = .scalar ' ') 0 rest)
  let b := blockLines joins indent (rest.length + 1) g rest
  let text := match chomping with
    | .strip => b.text
    | .clip => b.text ++ b.last
    | .keep => b.text ++ b.last ++ b.breaks
  return (text, header + b.width)

end Winnow.Yaml
