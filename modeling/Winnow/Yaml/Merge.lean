import Winnow.Yaml.Node

/-!
# Merged mappings

An entry of a mapping may ask that the entries of other mappings be merged into it.  `Graph.flatten`
does this in the graph, so that a mapping that is referred to from several places is merged into
once.  The merged entries come first, for the own ones prevail.  Of several mappings in a list the
first ones come last, for they prevail over the others.

A mapping loses an entry that asks for a merge before the other mappings are looked at.  Therefore
mappings may ask for each other, and one level of the recursion is needed for every such entry at
most.
-/

namespace Winnow.Yaml.Graph

/-- Changing the nodes of a graph, which may fail. -/
abbrev Merging := StateT (Array Node) (Except Fault)

/-- The node at a place. -/
def nodeAt (nodes : Array Node) (place : Nat) : Node := nodes.getD place default

/-- Whether a key asks for a merge. -/
def isMerge (nodes : Array Node) (key : Nat) : Bool := (nodeAt nodes key).tag = .merge

/-- The entries of a mapping; other nodes have none. -/
def entriesAt (nodes : Array Node) (place : Nat) : List (Nat × Nat) :=
  match nodeAt nodes place with
  | .mapping _ entries => entries
  | _ => []

/-- How many entries of a mapping ask for a merge. -/
def mergesAt (nodes : Array Node) (place : Nat) : Nat :=
  (entriesAt nodes place).countP fun e => isMerge nodes e.1

/-- Changes the entries of a mapping. -/
def changeEntries (place : Nat) (f : List (Nat × Nat) → List (Nat × Nat)) : Merging Unit :=
  modify fun nodes =>
    match nodeAt nodes place with
    | .mapping tag entries => nodes.setIfInBounds place (.mapping tag (f entries))
    | _ => nodes

/-- Takes the first entry that asks for a merge out of a mapping, and gives its value. -/
def takeMerge (place : Nat) : Merging (Option Nat) := do
  let nodes ← get
  let (before, rest) := (entriesAt nodes place).span fun e => !isMerge nodes e.1
  match rest with
  | [] => return none
  | (_, value) :: after =>
    changeEntries place fun _ => before ++ after
    return some value

/-- Makes a text of a key that stands for a scalar. -/
def settleKey (key : Nat) : Merging Unit :=
  modify fun nodes =>
    match nodeAt nodes key with
    | .scalar .scalarKey t => nodes.setIfInBounds key (.scalar .text t)
    | _ => nodes

/-- Merges into the mapping at a place what its entries ask for.  So many merges are nested at
most. -/
def flatten : (bound : Nat) → (place : Nat) → Merging Unit
  | 0, _ => throw .nestedTooDeep
  | bound + 1, place => do
    let flattened (other : Nat) : Merging (List (Nat × Nat)) := do
      match nodeAt (← get) other with
      | .mapping _ _ =>
        flatten bound other
        return entriesAt (← get) other
      | _ => throw .documentValue
    let additions (value : Nat) : Merging (List (Nat × Nat)) := do
      match nodeAt (← get) value with
      | .sequence _ items => return (← items.mapM flattened).reverse.flatten
      | _ => flattened value
    let merges := mergesAt (← get) place
    let mut merged : List (Nat × Nat) := []
    for _ in List.range merges do
      if let some value ← takeMerge place then merged := merged ++ (← additions value)
    changeEntries place (merged ++ ·)
    (entriesAt (← get) place).forM fun e => settleKey e.1

/-- How many entries of a graph ask for a merge. -/
def mergeCount (nodes : Array Node) : Nat :=
  (List.range nodes.size).foldl (fun n place => n + mergesAt nodes place) 0

end Winnow.Yaml.Graph
