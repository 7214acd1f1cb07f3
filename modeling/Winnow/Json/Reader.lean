import Winnow.Fault
import Winnow.Json.Token
import Winnow.Numeral

/-!
# Reading JSON texts

The reader consumes tokens one by one and keeps the arrays and objects that are open on a stack, so
its steps are a fold over the tokens and it needs no bound on its running time.  Texts that nest
deeper than `nestingLimit` are refused.

* `Json.read`: the value of a whole text.
* `Json.Refusal`: why a text is refused; `Json.Refusal.reason?` words it.
-/

namespace Winnow.Json

/-- The largest number of arrays and objects that may be open at one place. -/
def nestingLimit : Nat := 990

/-- Why a text is refused. -/
inductive Refusal where
  /-- The text breaks the grammar at a place. -/
  | grammar (reason : Text) (place : Nat)
  /-- An integer has more digits than are converted. -/
  | longInteger (digits : Nat)
  /-- Too many arrays or objects are open. -/
  | tooDeep (what : Text)

/-- An array or an object that is open, with what it holds so far; the items are in reverse. -/
inductive Frame where
  | array (items : List Value)
  | object (entries : Value.Entries)
  /-- An object whose value for a key is being read. -/
  | entry (entries : Value.Entries) (key : Text)

/-- What may come next. -/
inductive Expectation where
  | value
  /-- A value or the end of the array. -/
  | itemOrEnd
  | key
  /-- A key or the end of the object. -/
  | keyOrEnd
  | colon
  /-- A comma or the end of the innermost array or object. -/
  | delimiter
  /-- The end of the text. -/
  | nothing (result : Value)

/-- The state of the reader: the open arrays and objects, the innermost one first. -/
structure State where
  stack : List Frame
  expect : Expectation

/-- The state before the first token. -/
def State.start : State := ⟨[], .value⟩

/-- Hands a value over to the innermost open array or object. -/
def State.deliver (v : Value) : List Frame → State
  | [] => ⟨[], .nothing v⟩
  | .array items :: stack => ⟨.array (v :: items) :: stack, .delimiter⟩
  | .entry entries key :: stack => ⟨.object (Value.put key v entries) :: stack, .delimiter⟩
  | .object entries :: stack => ⟨.object entries :: stack, .delimiter⟩

/-- Opens an array or an object. -/
def State.enter (frame : Frame) (what : Text) (expect : Expectation) (stack : List Frame) :
    Except Refusal State :=
  if stack.length ≥ nestingLimit then .error (.tooDeep what) else .ok ⟨frame :: stack, expect⟩

/-- Reads a token where a value may begin. -/
def State.takeValue (stack : List Frame) (p : Placed) : Except Refusal State :=
  match p.token with
  | .plain v => .ok (deliver v stack)
  | .string t => .ok (deliver (.text t) stack)
  | .openArray => enter (.array []) "array" .itemOrEnd stack
  | .openObject => enter (.object []) "object" .keyOrEnd stack
  | .badString why => .error (.grammar why.reason (p.place + why.place))
  | .longInteger digits => .error (.longInteger digits)
  | _ => .error (.grammar "Expecting value" p.place)

/-- Reads a token where a key may begin. -/
def State.takeKey (stack : List Frame) (p : Placed) : Except Refusal State :=
  match p.token, stack with
  | .string t, .object entries :: rest => .ok ⟨.entry entries t :: rest, .colon⟩
  | .badString why, _ => .error (.grammar why.reason (p.place + why.place))
  | _, _ => .error (.grammar "Expecting property name enclosed in double quotes" p.place)

/-- Reads a token after an item of an array or an entry of an object. -/
def State.takeDelimiter (stack : List Frame) (p : Placed) : Except Refusal State :=
  match p.token, stack with
  | .comma, .array _ :: _ => .ok ⟨stack, .value⟩
  | .comma, .object _ :: _ => .ok ⟨stack, .key⟩
  | .closeArray, .array items :: rest => .ok (deliver (.list items.reverse) rest)
  | .closeObject, .object entries :: rest => .ok (deliver (.object entries) rest)
  | _, _ => .error (.grammar "Expecting ',' delimiter" p.place)

/-- Reads one token. -/
def State.step (s : State) (p : Placed) : Except Refusal State :=
  match s.expect with
  | .value => takeValue s.stack p
  | .itemOrEnd =>
    match p.token, s.stack with
    | .closeArray, .array items :: rest => .ok (deliver (.list items.reverse) rest)
    | _, stack => takeValue stack p
  | .key => takeKey s.stack p
  | .keyOrEnd =>
    match p.token, s.stack with
    | .closeObject, .object entries :: rest => .ok (deliver (.object entries) rest)
    | _, stack => takeKey stack p
  | .colon =>
    match p.token with
    | .colon => .ok ⟨s.stack, .value⟩
    | _ => .error (.grammar "Expecting ':' delimiter" p.place)
  | .delimiter => takeDelimiter s.stack p
  | .nothing _ =>
    match p.token with
    | .finish => .ok s
    | _ => .error (.grammar "Extra data" p.place)

/-- The mark that some programs put before a text to tell its encoding. -/
def byteOrderMark : CodePoint := .scalar '\uFEFF'

/-- The value of a text that does not begin with a byte order mark. -/
def readUnmarked (t : Text) : Except Refusal Value :=
  match (tokens t).foldlM State.step .start with
  | .error refusal => .error refusal
  | .ok ⟨_, .nothing v⟩ => .ok v
  | .ok _ => .error (.grammar "Expecting value" t.length)

/-- The value of a text. -/
def read (t : Text) : Except Refusal Value :=
  if t.head? = some byteOrderMark then
    .error (.grammar "Unexpected UTF-8 BOM (decode using utf-8-sig)" 0)
  else readUnmarked t

/-- A place in a text by line and column, both counted from one, and by its distance from the
beginning. -/
def placeText (t : Text) (place : Nat) : Text :=
  let before := t.take place
  let line := before.count (.scalar '\n') + 1
  let column := (before.reverse.takeWhile (· ≠ .scalar '\n')).length + 1
  ("line " : Text) ++ Numeral.digits line ++ (" column " : Text) ++ Numeral.digits column ++
    (" (char " : Text) ++ Numeral.digits place ++ (")" : Text)

/-- The wording of a refusal of a text, unless a number is to blame. -/
def Refusal.reason? (t : Text) : Refusal → Option Text
  | .grammar reason place => some (reason ++ (": " : Text) ++ placeText t place)
  | .tooDeep what => (Fault.tooDeep what).message?
  | .longInteger _ => none

end Winnow.Json
