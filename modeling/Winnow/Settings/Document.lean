import Winnow.Yaml.Atom

/-!
# Settings documents

A settings document is made of atoms and of collections of other documents.  A collection may hold
itself, so the parts of a document are given by their places in a table.

* `Document.part`: the document at another place.
* `Document.entry?`: the entry of a mapping under a text.
* `Document.literal`: a document in literal notation.
* `Document.ofEntries`: the document of named values.
-/

namespace Winnow

open Yaml (Atom)

/-- What a document is at its root. -/
inductive Cell where
  | atom (a : Atom)
  | sequence (items : List Nat)
  | mapping (entries : List (Atom × Nat))
  | set (members : List Atom)
  | pairs (entries : List (Nat × Nat))

instance : Inhabited Cell := ⟨.atom default⟩

/-- A table of cells, and the place of the root. -/
structure Document where
  cells : Array Cell
  root : Nat

namespace Document

/-- The document of an atom. -/
def ofAtom (a : Atom) : Document := ⟨#[.atom a], 0⟩

/-- The document that a text without any is: nothing. -/
def nothing : Document := ofAtom default

/-- The cell at the root. -/
def cell (d : Document) : Cell := d.cells.getD d.root default

/-- The part of a document at a place. -/
def part (d : Document) (place : Nat) : Document := { d with root := place }

/-- The value that a document is. -/
def value? (d : Document) : Option Value :=
  match d.cell with
  | .atom (.value v) => some v
  | _ => none

/-- The entry of a mapping under a text. -/
def entry? (d : Document) (key : Text) : Option Document :=
  match d.cell with
  | .mapping entries => (entries.find? fun e => e.1.isText key).map fun e => d.part e.2
  | _ => none

/-- Writes an entry of a mapping: an old key keeps its place, a new one comes last. -/
def put (key : Atom) (place : Nat) : List (Atom × Nat) → List (Atom × Nat)
  | [] => [(key, place)]
  | e :: es => if e.1.isSame key then (e.1, place) :: es else e :: put key place es

/-! ## Literal notation -/

/-- The notation of a collection that stands in itself. -/
def repeated : Cell → Text
  | .atom _ => []
  | .sequence _ | .pairs _ => "[...]"
  | .mapping _ => "\x7b...\x7d"
  | .set _ => "set(...)"

/-- The part of a table at a place in literal notation, within collections at other places.  So many
collections are nested at most. -/
def literalAt (cells : Array Cell) : (bound : Nat) → (around : List Nat) → (place : Nat) →
    Except Fault Text
  | 0, _, place => .ok (repeated (cells.getD place default))
  | bound + 1, around, place =>
    let cell := cells.getD place default
    let inner := literalAt cells bound (place :: around)
    if around.contains place then .ok (repeated cell)
    else
      match cell with
      | .atom a => a.literal
      | .sequence items => do
        return ("[" : Text) ++ commaSeparated (← items.mapM inner) ++ ("]" : Text)
      | .mapping entries => do
        let parts ← entries.mapM fun e => do
          return (← e.1.literal) ++ (": " : Text) ++ (← inner e.2)
        return ("\x7b" : Text) ++ commaSeparated parts ++ ("\x7d" : Text)
      | .set [] => .ok "set()"
      | .set members => do
        return ("\x7b" : Text) ++ commaSeparated (← members.mapM Atom.literal) ++ ("\x7d" : Text)
      | .pairs entries => do
        let parts ← entries.mapM fun e => do
          return ("(" : Text) ++ (← inner e.1) ++ (", " : Text) ++ (← inner e.2) ++ (")" : Text)
        return ("[" : Text) ++ commaSeparated parts ++ ("]" : Text)

/-- A document in literal notation; it has none if an integer in it has too many digits.  A
collection within itself is shown by points. -/
def literal (d : Document) : Except Fault Text :=
  literalAt d.cells (d.cells.size + 1) [] d.root

/-! ## Documents of named values -/

/-- The document of a mapping with entries under names, each a mapping with a value under a key. -/
def ofEntries (key : Text) (entries : List (Text × Value)) : Document :=
  let places := List.range entries.length
  let root := (entries.zip places).map fun e => (Atom.value (.text e.1.1), 2 * e.2 + 1)
  let cells := (entries.zip places).flatMap fun e =>
    [Cell.mapping [(.value (.text key), 2 * e.2 + 2)], .atom (.value e.1.2)]
  ⟨(Cell.mapping root :: cells).toArray, 0⟩

end Document

end Winnow
