import Winnow.Text.Base64
import Winnow.Yaml.Atom
import Winnow.Yaml.Number
import Winnow.Yaml.Timestamp

/-!
# Tags

A tag says what a node stands for.  A scalar without quotes has the tag that its text suggests.

* `Tag.ofName`: the tag of a full name.
* `Tag.suggested`: the tag of a text without quotes.
* `Tag.isCollection`: whether a tag is that of several nodes.
* `Tag.atom`: what a text under a tag stands for.
-/

namespace Winnow.Yaml

/-- What a node stands for. -/
inductive Tag where
  | null
  | bool
  | int
  | float
  | timestamp
  | text
  | binary
  | sequence
  | mapping
  /-- A mapping of which only the keys count. -/
  | set
  /-- A sequence of mappings with one entry each. -/
  | orderedMapping
  /-- Another sequence of mappings with one entry each. -/
  | pairs
  /-- The key whose value is merged into its mapping. -/
  | merge
  /-- The key of a mapping that stands for a scalar. -/
  | scalarKey
  | unknown
  deriving DecidableEq

namespace Tag

/-- The beginning of the names of the tags that are known everywhere. -/
def standardBeginning : Text := "tag:yaml.org,2002:"

/-- The known tags by the ends of their names. -/
def standard : List (Text × Tag) :=
  [("null", .null), ("bool", .bool), ("int", .int), ("float", .float), ("timestamp", .timestamp),
    ("str", .text), ("binary", .binary), ("seq", .sequence), ("map", .mapping), ("set", .set),
    ("omap", .orderedMapping), ("pairs", .pairs), ("merge", .merge), ("value", .scalarKey)]

/-- The tag with a name. -/
def ofName (name : Text) : Tag :=
  ((Text.dropPrefix? standardBeginning name).bind fun t => standard.lookup t).getD .unknown

/-- The words for nothing. -/
def nullWords : List Text := [[], "~", "null", "Null", "NULL"]

/-- The words for true and false. -/
def boolWords : List (Text × Bool) :=
  [("yes", true), ("no", false), ("true", true), ("false", false), ("on", true), ("off", false)]

/-- A word in lower case, with a capital letter, and in capital letters. -/
def spellings (word : Text) : List Text :=
  let upper (c : CodePoint) : CodePoint := .scalar c.toChar.toUpper
  [word, (word.take 1).map upper ++ word.drop 1, word.map upper]

/-- The tag of a text without quotes and without a line feed at its end. -/
def suggestedByLine (t : Text) : Tag :=
  if boolWords.any fun w => (spellings w.1).contains t then .bool
  else if isPointed t.chars then .float
  else if isInteger t.chars then .int
  else if t = ("<<" : Text) then .merge
  else if nullWords.contains t then .null
  else if Timestamp.isWritten t.chars then .timestamp
  else if t = ("=" : Text) then .scalarKey
  else if [("!" : Text), ("&" : Text), ("*" : Text)].contains t then .unknown
  else .text

/-- The tag of a text without quotes; a line feed at its end does not matter. -/
def suggested (t : Text) : Tag :=
  if t = ("\n" : Text) then .text else suggestedByLine t.withoutFinalBreak

/-- The truth value of a word in any case. -/
def truth (t : Text) : Except Fault Value :=
  match boolWords.lookup t.lower with
  | some b => .ok (.bool b)
  | none => .error (.missingKey t.lower)

/-- Whether a tag is that of several nodes. -/
def isCollection : Tag → Bool
  | .sequence | .mapping | .set | .orderedMapping | .pairs => true
  | _ => false

/-- The value of a timestamp. -/
def timestampValue (t : Text) : Except Fault Value :=
  match Timestamp.ofChars? t.withoutFinalBreak.chars with
  | some written => written.value
  | none => .error .notATimestamp

/-- The bytes of a text. -/
def binaryAtom (t : Text) : Except Fault Atom :=
  match t.ofBase64? with
  | some b => .ok (.bytes b)
  | none => .error .documentValue

/-- What a text with a tag stands for. -/
def atom (tag : Tag) (t : Text) : Except Fault Atom :=
  match tag with
  | .null => .ok (.value .null)
  | .bool => (truth t).map .value
  | .int => (integer t).map fun n => .value (.int n)
  | .float => (number t).map fun x => .value (.float x)
  | .timestamp => (timestampValue t).map .value
  | .text => .ok (.value (.text t))
  | .binary => binaryAtom t
  | .sequence | .mapping | .set | .orderedMapping | .pairs | .merge | .scalarKey | .unknown =>
    .error .documentValue

end Tag

end Winnow.Yaml
