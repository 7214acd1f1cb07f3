import Winnow.Json.Printer

/-!
# JSON texts in pieces

`Value.pieces` cuts the JSON text of a value into the pieces in which it is written to a file: every
key and every value of an object is a piece of its own, and an item of a list is one together with
what stands before it.
-/

namespace Winnow

/-- A text in front of the first of some pieces. -/
def glue (t : Text) : List Text → List Text
  | [] => [t]
  | piece :: pieces => (t ++ piece) :: pieces

namespace Value

mutual

/-- The pieces of a value at a level of indentation. -/
def piecesAt (layout : Json.Layout) (level : Nat) : Value → List Text
  | .text t => [Json.string layout.ascii t]
  | .list [] | .tuple [] => ["[]"]
  | .list items | .tuple items =>
    let opening := [.scalar '['] ++ Json.newline layout (level + 1)
    itemPieces layout (level + 1) opening items ++ [Json.newline layout level, [.scalar ']']]
  | .object [] => [[.scalar '\x7b', .scalar '\x7d']]
  | .object entries =>
    let opening := [.scalar '\x7b'] ++ Json.newline layout (level + 1)
    entryPieces layout (level + 1) opening entries ++
      [Json.newline layout level, [.scalar '\x7d']]
  | .null => ["null"]
  | .bool b => [if b then "true" else "false"]
  | .int n => [Numeral.ofIntUnlimited n]
  | .float x => [Json.number x]
  | .date _ | .moment _ => []

/-- The pieces of the items of a list; `before` stands in front of the first one. -/
def itemPieces (layout : Json.Layout) (level : Nat) (before : Text) : List Value → List Text
  | [] => []
  | v :: vs =>
    glue before (piecesAt layout level v) ++
      itemPieces layout level (Json.between layout level) vs

/-- The pieces of the entries of an object; `before` stands in front of the first one. -/
def entryPieces (layout : Json.Layout) (level : Nat) (before : Text) :
    List (Text × Value) → List Text
  | [] => []
  | (key, v) :: es =>
    [before, Json.string layout.ascii key, ": "] ++ piecesAt layout level v ++
      entryPieces layout level (Json.between layout level) es

end

/-- The pieces of the JSON text of a value. -/
def pieces (layout : Json.Layout) (v : Value) : List Text := v.piecesAt layout 0

end Value

end Winnow
