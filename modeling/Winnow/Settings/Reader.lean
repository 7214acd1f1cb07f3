import Winnow.Settings.Document
import Winnow.Yaml.Merge

/-!
# Reading settings documents

`Document.read` reads the document of a YAML text.  A text without a document is one that holds
nothing.

Every node of the graph gives one cell of the document.  The cells are made level by level from the
root, which decides which of several faults is reported: a scalar is read when it is met, and a
collection is filled after all collections that were met before.
-/

namespace Winnow

namespace Document

open Yaml (Atom Graph Tag)

/-- The state of making a document. -/
structure Making where
  /-- The nodes, into which others are merged. -/
  nodes : Array Yaml.Node
  /-- The cells that were made. -/
  cells : Array Cell
  /-- The nodes that were met. -/
  met : Array Bool
  /-- The collections that are still to be filled, the last one first. -/
  waiting : List Nat

/-- A step of making a document. -/
abbrev Maker := StateT Making (Except Fault)

/-- The text of a node.  That of a mapping is the text under the key that stands for a scalar; so
many mappings are gone through at most. -/
def scalarText (nodes : Array Yaml.Node) : (bound : Nat) → (place : Nat) → Except Fault Text
  | 0, _ => .error .nestedTooDeep
  | bound + 1, place =>
    match Graph.nodeAt nodes place with
    | .scalar _ t => .ok t
    | .sequence _ _ => .error .documentValue
    | .mapping _ entries =>
      match entries.find? fun e => (Graph.nodeAt nodes e.1).tag = .scalarKey with
      | some (_, value) => scalarText nodes bound value
      | none => .error .documentValue

/-- The atom of a node whose tag is not that of a collection. -/
def atomAt (nodes : Array Yaml.Node) (place : Nat) : Except Fault Atom := do
  let node := Graph.nodeAt nodes place
  match node.tag with
  | .merge | .scalarKey | .unknown => .error .documentValue
  | tag =>
    let t ← scalarText nodes (nodes.size + 1) place
    match node, tag with
    | .mapping _ _, .timestamp => .error .mappingAsTimestamp
    | _, _ => tag.atom t

/-- Notes the cell of a node. -/
def setCell (place : Nat) (cell : Cell) : Maker Unit :=
  modify fun m => { m with cells := m.cells.setIfInBounds place cell }

/-- Meets a node: a collection has to wait until it is filled. -/
def meet (place : Nat) : Maker Unit := do
  let m ← get
  if m.met.getD place true then return
  set { m with met := m.met.setIfInBounds place true }
  if (Graph.nodeAt m.nodes place).tag.isCollection then
    modify fun m => { m with waiting := place :: m.waiting }
  else setCell place (.atom (← atomAt m.nodes place))

/-- Meets a node that is a key; collections are none. -/
def meetKey (place : Nat) : Maker Atom := do
  meet place
  match (← get).cells.getD place default, (Graph.nodeAt (← get).nodes place).tag.isCollection with
  | .atom a, false => return a
  | _, _ => throw .documentValue

/-- Meets the keys and the values of a mapping, into which others are merged before. -/
def fillMapping (place : Nat) : Maker (List (Atom × Nat)) := do
  let m ← get
  match Graph.nodeAt m.nodes place with
  | .mapping _ _ =>
    let ((), nodes) ← (Graph.flatten (Graph.mergeCount m.nodes + 1) place).run m.nodes
    set { m with nodes }
    (Graph.entriesAt nodes place).foldlM
      (fun entries e => do
        let key ← meetKey e.1
        meet e.2
        return put key e.2 entries)
      []
  | _ => throw .documentValue

/-- Meets the keys and the values of mappings with one entry each. -/
def fillPairs (place : Nat) : Maker (List (Nat × Nat)) := do
  match Graph.nodeAt (← get).nodes place with
  | .sequence _ items => items.mapM fun item => do
    match Graph.nodeAt (← get).nodes item with
    | .mapping _ [(key, value)] =>
      meet key
      meet value
      return (key, value)
    | _ => throw .documentValue
  | _ => throw .documentValue

/-- Whether members are numbers, which have an order. -/
def haveOrder (members : List Atom) : Bool :=
  members.all fun a => match a with
    | .value v => v.isNumber
    | .bytes _ => false

/-- Whether a number does not come after another one. -/
def isInOrder (a b : Atom) : Bool :=
  match a, b with
  | .value v, .value w =>
    match v.numeric?, w.numeric? with
    | some x, some y => x.order? y != some .gt
    | _, _ => true
  | _, _ => true

/-- The members of a set: numbers by their size. -/
def arrange (members : List Atom) : List Atom :=
  if haveOrder members then members.mergeSort isInOrder else members

/-- Fills a collection. -/
def fill (place : Nat) : Maker Unit := do
  let node := Graph.nodeAt (← get).nodes place
  let cell ← match node.tag, node with
    | .sequence, .sequence _ items =>
      items.forM meet
      pure (.sequence items)
    | .mapping, _ => Cell.mapping <$> fillMapping place
    | .set, _ => do pure (.set (arrange ((← fillMapping place).map (·.1))))
    | .orderedMapping, _ | .pairs, _ => Cell.pairs <$> fillPairs place
    | _, _ => throw .documentValue
  setCell place cell

/-- Fills the collections that wait, and those that are met then; so many levels there are at
most. -/
def fillAll : (bound : Nat) → Maker Unit
  | 0 => return
  | bound + 1 => do
    let waiting := (← get).waiting
    if waiting.isEmpty then return
    modify fun m => { m with waiting := [] }
    waiting.reverse.forM fill
    fillAll bound

/-- The document of a graph. -/
def ofGraph (g : Graph) : Except Fault Document := do
  let size := g.nodes.size
  let making : Maker Unit := do
    meet g.root
    fillAll size
  let ((), m) ← making.run ⟨g.nodes, Array.replicate size default, Array.replicate size false, []⟩
  return ⟨m.cells, g.root⟩

/-- The document of a text. -/
def read (t : Text) : Except Fault Document := do
  match ← Graph.read? t with
  | some g => ofGraph g
  | none => return nothing

end Document

end Winnow
