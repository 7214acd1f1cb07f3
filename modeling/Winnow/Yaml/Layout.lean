import Winnow.Yaml.Token

/-!
# The layout of YAML texts

`tokens` cuts a text into tokens.  Outside brackets the columns of the lines say where blocks begin
and end, so marks of blocks stand between the tokens of the text.

Whether a token begins a key shows only at a colon behind it.  Such a token is a candidate, and the
tokens from it on are held back in a queue until a colon settles it or it is out of reach: on
another line or more than `keyReach` code points away.  Where a text cannot be cut, the tokens that
are held back are lost, and the last token says why.
-/

namespace Winnow.Yaml

/-- A token that begins a key if a colon follows. -/
structure Candidate where
  /-- The number of the token. -/
  number : Nat
  /-- Whether the line makes no sense unless it is a key. -/
  required : Bool
  place : Cursor

/-- The largest distance between the beginning of a key and its colon. -/
def keyReach : Nat := 1024

/-- The state of the cutting. -/
structure Layout where
  place : Cursor
  /-- The tokens that are held back. -/
  queue : List Token
  /-- The number of tokens before the queue. -/
  taken : Nat
  /-- The columns of the open blocks, the innermost one first. -/
  blocks : List Nat
  /-- The number of open brackets, less that of brackets closed too often. -/
  depth : Int
  keyAllowed : Bool
  /-- The candidates by the number of brackets open at each. -/
  candidates : List (Int × Candidate)
  finished : Bool

namespace Layout

/-- The state at the beginning of a text. -/
def start (t : Text) : Layout := ⟨.start t, [], 0, [], 0, true, [], false⟩

/-- Whether a bracket is open. -/
def inFlow (s : Layout) : Bool := s.depth ≠ 0

/-- Moves on by a number of code points. -/
def skip (n : Nat) (s : Layout) : Layout := { s with place := s.place.skip n }

/-- Puts a token at the end of the queue. -/
def push (token : Token) (s : Layout) : Layout := { s with queue := s.queue ++ [token] }

/-- Says whether the next token may begin a key. -/
def allowKey (allowed : Bool) (s : Layout) : Layout := { s with keyAllowed := allowed }

/-! ## Candidates -/

/-- Drops the candidates of a kind, none of which may be required. -/
def dropCandidates (isDropped : Int × Candidate → Bool) (s : Layout) : Except Fault Layout :=
  if s.candidates.any fun k => isDropped k && k.2.required then .error .documentToken
  else .ok { s with candidates := s.candidates.filter fun k => !isDropped k }

/-- Drops the candidates that are out of reach. -/
def dropDistant : Layout → Except Fault Layout := fun s =>
  s.dropCandidates fun k =>
    k.2.place.line ≠ s.place.line || k.2.place.index + keyReach < s.place.index

/-- Drops the candidate between the brackets that are open. -/
def dropCurrent : Layout → Except Fault Layout := fun s =>
  s.dropCandidates fun k => k.1 = s.depth

/-- Makes the next token a candidate, if it may begin a key. -/
def addCandidate (s : Layout) : Except Fault Layout := do
  if !s.keyAllowed then return s
  let required := !s.inFlow && s.blocks.head? == some s.place.column
  let k : Candidate := ⟨s.taken + s.queue.length, required, s.place⟩
  let s ← s.dropCurrent
  return { s with candidates := (s.depth, k) :: s.candidates }

/-! ## Blocks -/

/-- Closes the blocks that lie to the right of a column, or all.  Brackets suspend the layout. -/
def closeBlocks (column : Option Nat) (s : Layout) : Layout :=
  if s.inFlow then s
  else
    let (closed, kept) := s.blocks.span fun b => column.all (· < b)
    { s with blocks := kept, queue := s.queue ++ closed.map fun _ => .blockEnd }

/-- Whether a block begins at a column. -/
def opensBlock (column : Nat) (s : Layout) : Bool := !s.inFlow && s.blocks.head?.all (· < column)

/-- Opens a block at the cursor, if one begins there. -/
def openBlock (token : Token) (s : Layout) : Layout :=
  let column := s.place.column
  if s.opensBlock column then { s.push token with blocks := column :: s.blocks } else s

/-! ## Tokens -/

/-- The number of code points before the next token, and whether a line ends among them. -/
def spacing (inComment : Bool) : Text → Nat × Bool
  | [] => (0, false)
  | c :: cs =>
    if isBreak c then ((spacing false cs).1 + 1, true)
    else if inComment ∨ c = .scalar ' ' ∨ c = .scalar '#' then
      let (n, broken) := spacing (inComment || c = .scalar '#') cs
      (n + 1, broken)
    else (0, false)

/-- Moves on to the next token.  Behind a line break outside brackets it may begin a key. -/
def skipSpacing (s : Layout) : Layout :=
  let marked := s.place.index = 0 ∧ s.place.rest.head? = some byteOrderMark
  let s := if marked then s.skip 1 else s
  let (n, broken) := spacing false s.place.rest
  s.skip n |>.allowKey (s.keyAllowed || (broken && !s.inFlow))

/-- Ends the text. -/
def finish (s : Layout) : Except Fault Layout := do
  let s ← (s.closeBlocks none).dropCurrent
  return { s.push .finish with keyAllowed := false, candidates := [], finished := true }

/-- Reads a token that ends all blocks. -/
def between (token : Token) (width : Nat) (s : Layout) : Except Fault Layout := do
  return (← (s.closeBlocks none).dropCurrent) |>.allowKey false |>.skip width |>.push token

/-- Reads an opening bracket. -/
def openFlow (token : Token) (s : Layout) : Except Fault Layout := do
  let s ← s.addCandidate
  return { s with depth := s.depth + 1 } |>.allowKey true |>.skip 1 |>.push token

/-- Reads a closing bracket. -/
def closeFlow (token : Token) (s : Layout) : Except Fault Layout := do
  let s ← s.dropCurrent
  return { s with depth := s.depth - 1 } |>.allowKey false |>.skip 1 |>.push token

/-- Reads the comma between nodes. -/
def flowEntry (s : Layout) : Except Fault Layout := do
  return (← s.dropCurrent) |>.allowKey true |>.skip 1 |>.push .flowEntry

/-- Reads the dash of an item. -/
def blockEntry (s : Layout) : Except Fault Layout := do
  if !s.inFlow ∧ !s.keyAllowed then .error .documentToken
  return (← (s.openBlock .blockSequence).dropCurrent) |>.allowKey true |>.skip 1 |>.push .blockEntry

/-- Reads the question mark before a key. -/
def keyMark (s : Layout) : Except Fault Layout := do
  if !s.inFlow ∧ !s.keyAllowed then .error .documentToken
  return (← (s.openBlock .blockMapping).dropCurrent) |>.allowKey (!s.inFlow) |>.skip 1 |>.push .key

/-- Reads a colon that settles a candidate: the mark of a key goes before its token, and that of a
mapping if one begins there. -/
def settle (k : Candidate) (s : Layout) : Layout :=
  let opens := s.opensBlock k.place.column
  let marks := if opens then [.blockMapping, .key] else [.key]
  let n := k.number - s.taken
  let settled := { s with
    queue := s.queue.take n ++ marks ++ s.queue.drop n
    blocks := if opens then k.place.column :: s.blocks else s.blocks
    candidates := s.candidates.filter fun other => other.1 ≠ s.depth }
  settled |>.allowKey false |>.skip 1 |>.push .value

/-- Reads the colon before a value. -/
def valueMark (s : Layout) : Except Fault Layout := do
  match s.candidates.lookup s.depth with
  | some k => return s.settle k
  | none =>
    if !s.inFlow ∧ !s.keyAllowed then .error .documentToken
    return s.openBlock .blockMapping |>.allowKey (!s.inFlow) |>.skip 1 |>.push .value

/-- Reads a token of some width that may begin a key. -/
def candidate (token : Token) (width : Nat) (s : Layout) : Except Fault Layout := do
  return (← s.addCandidate) |>.allowKey false |>.skip width |>.push token

/-- Reads a scalar without quotes.  If a line ends behind it, the next token may begin a key. -/
def plain (s : Layout) : Except Fault Layout := do
  let indent := (s.blocks.head?.map (· + 1)).getD 0
  let p := plainText s.inFlow indent s.place.rest.length s.place.rest
  return (← s.candidate (.scalar p.text true) p.width).allowKey p.broken

/-- Reads a block of lines behind its bar. -/
def block (joins : Bool) (behind : Text) (s : Layout) : Except Fault Layout := do
  let margin := (s.blocks.head?.map (· + 1)).getD 0
  let s ← s.dropCurrent
  let (t, n) ← blockText joins margin behind
  return s.allowKey true |>.skip (n + 1) |>.push (.scalar t false)

/-- Reads a scalar behind its opening quote. -/
def quoted (double : Bool) (behind : Text) (s : Layout) : Except Fault Layout := do
  let s ← s.addCandidate
  let (t, n) ← quotedText double 0 behind
  return s.allowKey false |>.skip (n + 1) |>.push (.scalar t false)

/-- Reads a name behind its sign. -/
def named (token : Text → Token) (behind : Text) (s : Layout) : Except Fault Layout := do
  let s ← s.addCandidate
  let name ← anchorText behind
  return s.allowKey false |>.skip (name.length + 1) |>.push (token name)

/-- Whether a scalar without quotes begins with a code point. -/
def beginsPlain (s : Layout) (c : CodePoint) (behind : Text) : Bool :=
  let isIndicator := isGap c || isAmong "-?:,[]\x7b\x7d#&*!|>'\"%@\x60" c
  !isIndicator || (!endsOr isGap behind && (c = .scalar '-' || (!s.inFlow && isAmong "?:" c)))

/-- Reads the token that begins with a code point. -/
def readToken (c : CodePoint) (behind : Text) (s : Layout) : Except Fault Layout :=
  let t := c :: behind
  let is (character : Char) : Bool := c = .scalar character
  let isWord := endsOr isGap behind
  let atStart := s.place.column = 0
  if atStart ∧ is '%' then do
    let (d, n) ← directiveText behind
    s.between (.directive d) (n + 1)
  else if atStart ∧ isDocumentMark t then
    s.between (if is '-' then .documentStart else .documentEnd) 3
  else if is '[' then s.openFlow .flowSequence
  else if is '\x7b' then s.openFlow .flowMapping
  else if is ']' then s.closeFlow .flowSequenceEnd
  else if is '\x7d' then s.closeFlow .flowMappingEnd
  else if is ',' then s.flowEntry
  else if is '-' ∧ isWord then s.blockEntry
  else if is '?' ∧ (s.inFlow ∨ isWord) then s.keyMark
  else if is ':' ∧ (s.inFlow ∨ isWord) then s.valueMark
  else if is '*' then s.named .alias behind
  else if is '&' then s.named .anchor behind
  else if is '!' then do
    let s ← s.addCandidate
    let (token, n) ← tagText t
    return s.allowKey false |>.skip n |>.push token
  else if is '|' ∧ !s.inFlow then s.block false behind
  else if is '>' ∧ !s.inFlow then s.block true behind
  else if is '\'' then s.quoted false behind
  else if is '"' then s.quoted true behind
  else if s.beginsPlain c behind then s.plain
  else .error .documentToken

/-- Reads the next token. -/
def read (s : Layout) : Except Fault Layout := do
  let s ← s.skipSpacing.dropDistant
  let s := s.closeBlocks (some s.place.column)
  match s.place.rest with
  | [] => s.finish
  | c :: behind => s.readToken c behind

/-- The number of tokens in the queue that no candidate holds back. -/
def settledCount (s : Layout) : Nat :=
  s.candidates.foldl (fun n k => min n (k.2.number - s.taken)) s.queue.length

/-- The tokens from a state on.  Each step reads at least one code point. -/
def tokensFrom : (bound : Nat) → Layout → List Token
  | 0, _ => [.finish]
  | bound + 1, s =>
    match s.read >>= dropDistant with
    | .error fault => [.failed fault]
    | .ok s =>
      if s.finished then s.queue
      else
        let n := s.settledCount
        s.queue.take n ++ tokensFrom bound { s with queue := s.queue.drop n, taken := s.taken + n }

end Layout

/-- The tokens of a text. -/
def tokens (t : Text) : List Token := (Layout.start t).tokensFrom (t.length + 1)

end Winnow.Yaml
