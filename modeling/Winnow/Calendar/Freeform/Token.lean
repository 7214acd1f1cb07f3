import Winnow.Text.Blank
import Winnow.Text.Digit
import Winnow.Text.Letter

/-!
# Words and numbers of a free-form date

`tokens` cuts a text into runs of letters, numerals with at most one point, blanks and single marks.
A run that mixes points with letters, or holds several points, is cut at its points and commas; a
numeral with a decimal comma and no point takes a point instead.
-/

namespace Winnow.Freeform

/-- A token is the list of its characters. -/
abbrev Token := List Char

/-- The kinds of run that a token can be. -/
inductive Run where
  | word
  | numeral
  | pointedWord
  | pointedNumeral
  deriving DecidableEq

/-- Whether a character separates words. -/
def isBlank (c : Char) : Bool := (CodePoint.scalar c).isBlank

/-- Whether a character belongs to a numeral, even if it has no place in a positional one. -/
def isDigit (c : Char) : Bool := (CodePoint.scalar c).isDigit

/-- Whether a character belongs to a word. -/
def isLetter (c : Char) : Bool := (CodePoint.scalar c).isLetter

/-- How a run that ends in a given character, and is longer than one or not, goes on with another
character; nothing if that character begins a new token. -/
def Run.next? (run : Run) (last : Char) (long : Bool) (c : Char) : Option Run :=
  match run with
  | .word => if isLetter c then some .word else if c = '.' then some .pointedWord else none
  | .numeral =>
    if isDigit c then some .numeral
    else if c = '.' ∨ (c = ',' ∧ long) then some .pointedNumeral
    else none
  | .pointedWord =>
    if c = '.' ∨ isLetter c then some .pointedWord
    else if isDigit c ∧ last = '.' then some .pointedNumeral
    else none
  | .pointedNumeral =>
    if c = '.' ∨ isDigit c then some .pointedNumeral
    else if isLetter c ∧ last = '.' then some .pointedWord
    else none

/-- Cuts at points and commas, which become tokens of their own. -/
def cutAtPoints : List Char → List Token
  | [] => [[]]
  | c :: cs =>
    if c = '.' ∨ c = ',' then [] :: [c] :: cutAtPoints cs
    else
      match cutAtPoints cs with
      | [] => [[c]]
      | piece :: pieces => (c :: piece) :: pieces

/-- The tokens of a finished run, given in reverse, and whether it holds letters. -/
def finishRun (run : Run) (letters : Bool) (reversed : List Char) : List Token :=
  let token := reversed.reverse
  let pointed := run = .pointedWord ∨ run = .pointedNumeral
  let ends := reversed.head? == some '.' || reversed.head? == some ','
  if pointed ∧ (letters ∨ 1 < token.count '.' ∨ ends) then
    match cutAtPoints token with
    | [] => []
    | piece :: pieces => piece :: pieces.filter (· ≠ [])
  else if run = .pointedNumeral ∧ token.count '.' = 0 then
    [token.map fun c => if c = ',' then '.' else c]
  else [token]

/-- A run in progress: its kind, whether letters were added to it, and its characters in reverse. -/
structure Open where
  run : Run
  letters : Bool
  reversed : List Char

/-- The token or the run that a character begins. -/
def begin (c : Char) : Option Open × List Token :=
  if isLetter c then (some ⟨.word, false, [c]⟩, [])
  else if isDigit c then (some ⟨.numeral, false, [c]⟩, [])
  else if isBlank c then (none, [[' ']])
  else (none, [[c]])

/-- The tokens of the rest of a text, a run being in progress or not. -/
def tokensFrom : Option Open → List Char → List Token
  | none, [] => []
  | some o, [] => finishRun o.run o.letters o.reversed
  | none, c :: cs =>
    if c.toNat = 0 then tokensFrom none cs
    else (begin c).2 ++ tokensFrom (begin c).1 cs
  | some o, c :: cs =>
    if c.toNat = 0 then tokensFrom (some o) cs
    else
      let letters := o.letters || o.run = .word || o.run = .pointedWord
      match o.run.next? (o.reversed.headD ' ') (1 < o.reversed.length) c with
      | some run => tokensFrom (some ⟨run, letters, c :: o.reversed⟩) cs
      | none => finishRun o.run letters o.reversed ++ (begin c).2 ++ tokensFrom (begin c).1 cs

/-- The tokens of a text. -/
def tokens (cs : List Char) : List Token := tokensFrom none cs

end Winnow.Freeform
