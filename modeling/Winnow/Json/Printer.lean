import Winnow.Value.Literal

/-!
# Writing JSON texts

`Value.json` writes a value as a JSON text in a given layout.  Numbers that are not finite are
written by name, tuples as arrays.  Dates and moments have no JSON form.

* `Json.Layout.line`: on one line, with ASCII characters only.
* `Json.Layout.page`: on indented lines, with every character that needs no escape as it is.
-/

namespace Winnow

namespace Json

/-- How a JSON text is laid out. -/
structure Layout where
  /-- Whether characters outside ASCII are escaped. -/
  ascii : Bool
  /-- The number of blanks per level of indentation, if each item has its own line. -/
  indent : Option Nat

/-- Everything on one line, in ASCII. -/
def Layout.line : Layout := ⟨true, none⟩

/-- Every item on its own line, indented by four blanks per level. -/
def Layout.page : Layout := ⟨false, some 4⟩

/-- An escape by the number of a UTF-16 code unit. -/
def unitEscape (unit : Nat) : Text := Text.ofChars ('\\' :: 'u' :: hexDigits 4 unit)

/-- The escape of any code point; beyond the basic plane it takes two code units. -/
def numericEscape (n : Nat) : Text :=
  if n < 0x10000 then unitEscape n
  else unitEscape (0xD800 + (n - 0x10000) / 0x400) ++ unitEscape (0xDC00 + (n - 0x10000) % 0x400)

/-- How a string shows a code point. -/
def escaped (ascii : Bool) (c : CodePoint) : Text :=
  match c with
  | .scalar '"' => "\\\""
  | .scalar '\\' => "\\\\"
  | .scalar '\n' => "\\n"
  | .scalar '\r' => "\\r"
  | .scalar '\t' => "\\t"
  | .scalar '\x0c' => "\\f"
  | .scalar '\x08' => "\\b"
  | _ =>
    let n := c.toNat
    if n < 0x20 ∨ ascii ∧ 0x7F ≤ n then numericEscape n else [c]

/-- A text as a JSON string. -/
def string (ascii : Bool) (t : Text) : Text :=
  [.scalar '"'] ++ t.flatMap (escaped ascii) ++ [.scalar '"']

/-- A binary64 number as a JSON text. -/
def number (x : Binary64) : Text :=
  if x.isNaN then "NaN"
  else if x.isFinite then x.text
  else if x.text.head? = some (.scalar '-') then "-Infinity"
  else "Infinity"

/-- The beginning of a line at a level of indentation, nothing where there are no lines. -/
def newline (layout : Layout) (level : Nat) : Text :=
  match layout.indent with
  | none => []
  | some width => .scalar '\n' :: List.replicate (width * level) (.scalar ' ')

/-- What stands between two items. -/
def between (layout : Layout) (level : Nat) : Text :=
  match layout.indent with
  | none => ", "
  | some _ => .scalar ',' :: newline layout level

/-- Items between brackets. -/
def bracketed (layout : Layout) (level : Nat) (opening closing : Char) (items : List Text) : Text :=
  if items.isEmpty then [.scalar opening, .scalar closing]
  else
    [.scalar opening] ++ newline layout (level + 1) ++
      List.intercalate (between layout (level + 1)) items ++
      newline layout level ++ [.scalar closing]

end Json

namespace Value

mutual

/-- The JSON text of a value at a level of indentation. -/
def jsonAt (layout : Json.Layout) (level : Nat) : Value → Except Fault Text
  | .null => .ok "null"
  | .bool b => .ok (if b then "true" else "false")
  | .int n => Numeral.ofInt n
  | .float x => .ok (Json.number x)
  | .text t => .ok (Json.string layout.ascii t)
  | .list items => do
    return Json.bracketed layout level '[' ']' (← jsonItems layout (level + 1) items)
  | .tuple items => do
    return Json.bracketed layout level '[' ']' (← jsonItems layout (level + 1) items)
  | .object entries => do
    return Json.bracketed layout level '\x7b' '\x7d' (← jsonEntries layout (level + 1) entries)
  | .date _ => .error .notJson
  | .moment _ => .error .notJson

/-- The JSON texts of the items of a list. -/
def jsonItems (layout : Json.Layout) (level : Nat) : List Value → Except Fault (List Text)
  | [] => .ok []
  | v :: vs => do return (← jsonAt layout level v) :: (← jsonItems layout level vs)

/-- The JSON texts of the entries of an object. -/
def jsonEntries (layout : Json.Layout) (level : Nat) :
    List (Text × Value) → Except Fault (List Text)
  | [] => .ok []
  | (key, v) :: es => do
    return (Json.string layout.ascii key ++ (": " : Text) ++ (← jsonAt layout level v)) ::
      (← jsonEntries layout level es)

end

/-- The JSON text of a value. -/
def json (layout : Json.Layout) (v : Value) : Except Fault Text := v.jsonAt layout 0

end Value

end Winnow
