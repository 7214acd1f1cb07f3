import Winnow.Yaml.Layout
import Winnow.Yaml.Tag

/-!
# Nodes

A YAML document is a graph of scalars, sequences and mappings: a node may be referred to from
elsewhere, also from within itself.  `Graph.read?` reads the graph of a text with a single document.

The reader goes through the tokens by recursive descent.  A node that is missing where one may stand
is an empty scalar.  An anchor names a node for the references that follow, those within it
included.  Between two calls of `node`, one inside the other, a token is consumed and at most two
other functions are entered, so the bound of the recursion is a multiple of the number of tokens.
-/

namespace Winnow.Yaml

/-- A part of a document.  Items, keys and values are given by their places in the graph. -/
inductive Node where
  | scalar (tag : Tag) (t : Text)
  | sequence (tag : Tag) (items : List Nat)
  | mapping (tag : Tag) (entries : List (Nat × Nat))

instance : Inhabited Node := ⟨.scalar .null []⟩

/-- The tag of a node. -/
def Node.tag : Node → Tag
  | .scalar tag _ | .sequence tag _ | .mapping tag _ => tag

/-- The nodes of a document, and the place of its root. -/
structure Graph where
  nodes : Array Node
  root : Nat

namespace Graph

/-- The state of the reader. -/
structure Reader where
  tokens : List Token
  /-- The nodes that were read.  One that is still open has no parts yet. -/
  nodes : Array Node
  /-- The places of the nodes by their anchors. -/
  anchors : List (Text × Nat)
  /-- The number of the nodes that are open. -/
  depth : Nat
  /-- The beginnings of tags by their handles. -/
  handles : List (Text × Text)

/-- Reading from tokens. -/
abbrev Reading := StateT Reader (Except Fault)

/-- Refuses the text. -/
def refuse {α : Type} (fault : Fault) : Reading α := throw fault

/-- The next token. -/
def peek : Reading Token := do
  match (← get).tokens with
  | [] => return .finish
  | .failed fault :: _ => refuse fault
  | token :: _ => return token

/-- Goes on to the next token. -/
def advance : Reading Unit := modify fun r => { r with tokens := r.tokens.drop 1 }

/-- Goes on if the next token is of a class, and says whether it is. -/
def accept (isMember : Token → Bool) : Reading Bool := do
  if isMember (← peek) then
    advance
    return true
  return false

/-! ## Classes of tokens -/

/-- Whether a token is the mark of a value. -/
def isValue : Token → Bool
  | .value => true
  | _ => false

/-- Whether a token is a comma between brackets. -/
def isFlowEntry : Token → Bool
  | .flowEntry => true
  | _ => false

/-- Whether a token is the mark of a document's end. -/
def isDocumentEnd : Token → Bool
  | .documentEnd => true
  | _ => false

/-- Whether an item of a block has no node, by the token behind its dash. -/
def endsItem : Token → Bool
  | .blockEntry | .blockEnd => true
  | _ => false

/-- Whether an item of a sequence without a block of its own has no node. -/
def endsLooseItem : Token → Bool
  | .blockEntry | .key | .value | .blockEnd => true
  | _ => false

/-- Whether a key or a value of a block has no node. -/
def endsPart : Token → Bool
  | .key | .value | .blockEnd => true
  | _ => false

/-- Whether a value between brackets has no node. -/
def endsFlowValue (isEnd : Token → Bool) (token : Token) : Bool := isFlowEntry token || isEnd token

/-- Whether a token closes a sequence between brackets. -/
def isSequenceEnd : Token → Bool
  | .flowSequenceEnd => true
  | _ => false

/-- Whether a token closes a mapping between brackets. -/
def isMappingEnd : Token → Bool
  | .flowMappingEnd => true
  | _ => false

/-- Whether a document has no node, by the token behind its mark. -/
def endsDocument : Token → Bool
  | .directive _ | .documentStart | .documentEnd | .finish => true
  | _ => false

/-! ## Properties of nodes -/

/-- The properties before a node: its anchor and its full tag. -/
structure Properties where
  anchor : Option Text
  tag : Option Text

/-- The full name of a tag. -/
def fullTag (handle : Option Text) (suffix : Text) : Reading Text := do
  match handle with
  | none => return suffix
  | some handle =>
    match (← get).handles.lookup handle with
    | some beginning => return beginning ++ suffix
    | none => refuse .documentStructure

/-- The anchor before a node. -/
def anchor : Reading (Option Text) := do
  match ← peek with
  | .anchor name =>
    advance
    return some name
  | _ => return none

/-- The tag before a node, as it is written. -/
def writtenTag : Reading (Option (Option Text × Text)) := do
  match ← peek with
  | .tag handle suffix =>
    advance
    return some (handle, suffix)
  | _ => return none

/-- The properties before a node, in any order. -/
def properties : Reading Properties := do
  let first ← anchor
  let tag ← writtenTag
  let name ← if first.isNone ∧ tag.isSome then anchor else pure first
  match tag with
  | some (handle, suffix) => return ⟨name, some (← fullTag handle suffix)⟩
  | none => return ⟨name, none⟩

/-- Puts a node into the graph, under its anchor, which must be new. -/
def Properties.add (p : Properties) (n : Node) : Reading Nat := do
  let r ← get
  let place := r.nodes.size
  let anchors ← match p.anchor with
    | none => pure r.anchors
    | some name =>
      if ((r.anchors.lookup name).isSome : Bool) then refuse .documentReference
      pure ((name, place) :: r.anchors)
  set { r with nodes := r.nodes.push n, anchors }
  return place

/-- Puts a node without properties into the graph: the one that stands where a node is missing. -/
def addMissing : Reading Nat := Properties.add ⟨none, none⟩ default

/-- How many nodes may be open at once. -/
def depthLimit : Nat := 488

/-- Puts a node into the graph that is open while its parts are read. -/
def Properties.addOpen {α : Type} (p : Properties) (parts : Reading α) (ofParts : α → Node)
    (start : α) : Reading Nat := do
  let place ← p.add (ofParts start)
  if depthLimit ≤ (← get).depth then refuse .nestedTooDeep
  modify fun r => { r with depth := r.depth + 1 }
  let parts ← parts
  modify fun r =>
    { r with depth := r.depth - 1, nodes := r.nodes.setIfInBounds place (ofParts parts) }
  return place

/-- The tag that leaves the choice to the text. -/
def openTag : Text := "!"

/-- The tag of a scalar: without a tag, only a text without quotes suggests one. -/
def Properties.scalarTag (p : Properties) (isPlain : Bool) (t : Text) : Tag :=
  match p.tag with
  | none => if isPlain then Tag.suggested t else .text
  | some name => if name = openTag then Tag.suggested t else Tag.ofName name

/-- The tag of a sequence or a mapping. -/
def Properties.collectionTag (p : Properties) (usual : Tag) : Tag :=
  match p.tag with
  | none => usual
  | some name => if name = openTag then usual else Tag.ofName name

/-- Reads a scalar with a text. -/
def Properties.scalar (p : Properties) (isPlain : Bool) (t : Text) : Reading Nat :=
  p.add (.scalar (p.scalarTag isPlain t) t)

/-- Reads a sequence with items. -/
def Properties.sequence (p : Properties) (items : Reading (List Nat)) : Reading Nat :=
  p.addOpen items (.sequence (p.collectionTag .sequence)) []

/-- Reads a mapping with entries. -/
def Properties.mapping (p : Properties) (entries : Reading (List (Nat × Nat))) : Reading Nat :=
  p.addOpen entries (.mapping (p.collectionTag .mapping)) []

/-- The place of the node with an anchor. -/
def referent (name : Text) : Reading Nat := do
  match (← get).anchors.lookup name with
  | some place => return place
  | none => refuse .documentReference

/-! ## Nodes -/

mutual

/-- Reads a node.  Only outside brackets it may be a block, and only behind a key or a colon a
sequence without a block of its own. -/
def node : (bound : Nat) → (inBlock loose : Bool) → Reading Nat
  | 0, _, _ => refuse .documentStructure
  | bound + 1, inBlock, loose => do
    match ← peek with
    | .alias name =>
      advance
      referent name
    | _ =>
      let p ← properties
      match ← peek with
      | .scalar t isPlain =>
        advance
        p.scalar isPlain t
      | .flowSequence => p.sequence do advance; flowItems bound true
      | .flowMapping => p.mapping do advance; flowEntries bound true
      | token =>
        match token, inBlock, loose with
        | .blockEntry, _, true => p.sequence (looseItems bound)
        | .blockSequence, true, _ => p.sequence do advance; blockItems bound
        | .blockMapping, true, _ => p.mapping do advance; blockEntries bound
        | _, _, _ =>
          if p.anchor.isNone ∧ p.tag.isNone then refuse .documentStructure
          p.scalar true []

/-- Reads a node unless the next token says that there is none. -/
def nodeUnless : (bound : Nat) → (isMissing : Token → Bool) → (inBlock loose : Bool) → Reading Nat
  | 0, _, _, _ => refuse .documentStructure
  | bound + 1, isMissing, inBlock, loose => do
    if isMissing (← peek) then addMissing else node bound inBlock loose

/-- Reads the rest of a block of items. -/
def blockItems : (bound : Nat) → Reading (List Nat)
  | 0 => refuse .documentStructure
  | bound + 1 => do
    match ← peek with
    | .blockEntry =>
      advance
      let item ← nodeUnless bound endsItem true false
      return item :: (← blockItems bound)
    | .blockEnd =>
      advance
      return []
    | _ => refuse .documentStructure

/-- Reads items that stand at the column of their key. -/
def looseItems : (bound : Nat) → Reading (List Nat)
  | 0 => refuse .documentStructure
  | bound + 1 => do
    match ← peek with
    | .blockEntry =>
      advance
      let item ← nodeUnless bound endsLooseItem true false
      return item :: (← looseItems bound)
    | _ => return []

/-- Reads the rest of a block of entries. -/
def blockEntries : (bound : Nat) → Reading (List (Nat × Nat))
  | 0 => refuse .documentStructure
  | bound + 1 => do
    match ← peek with
    | .key =>
      advance
      let key ← nodeUnless bound endsPart true true
      let value ← if ← accept isValue then nodeUnless bound endsPart true true else addMissing
      return (key, value) :: (← blockEntries bound)
    | .blockEnd =>
      advance
      return []
    | _ => refuse .documentStructure

/-- Reads a key between brackets, behind its mark, and its value. -/
def flowPair : (bound : Nat) → (isEnd : Token → Bool) → Reading (Nat × Nat)
  | 0, _ => refuse .documentStructure
  | bound + 1, isEnd => do
    let key ← nodeUnless bound (fun t => isValue t || endsFlowValue isEnd t) false false
    let value ← if ← accept isValue then nodeUnless bound (endsFlowValue isEnd) false false
      else addMissing
    return (key, value)

/-- Reads the rest of a sequence between brackets.  A pair makes a mapping of its own. -/
def flowItems : (bound : Nat) → (isFirst : Bool) → Reading (List Nat)
  | 0, _ => refuse .documentStructure
  | bound + 1, isFirst => do
    if ← accept isSequenceEnd then return []
    if !isFirst then
      if !(← accept isFlowEntry) then refuse .documentStructure
    match ← peek with
    | .flowSequenceEnd =>
      advance
      return []
    | .key =>
      let item ← Properties.mapping ⟨none, none⟩ do
        advance
        return [← flowPair bound isSequenceEnd]
      return item :: (← flowItems bound false)
    | _ =>
      let item ← node bound false false
      return item :: (← flowItems bound false)

/-- Reads the rest of a mapping between brackets.  A key may stand without a value. -/
def flowEntries : (bound : Nat) → (isFirst : Bool) → Reading (List (Nat × Nat))
  | 0, _ => refuse .documentStructure
  | bound + 1, isFirst => do
    if ← accept isMappingEnd then return []
    if !isFirst then
      if !(← accept isFlowEntry) then refuse .documentStructure
    match ← peek with
    | .flowMappingEnd =>
      advance
      return []
    | .key =>
      advance
      let pair ← flowPair bound isMappingEnd
      return pair :: (← flowEntries bound false)
    | _ =>
      let key ← node bound false false
      let value ← addMissing
      return (key, value) :: (← flowEntries bound false)

end

/-! ## Documents -/

/-- The handles that every document knows. -/
def usualHandles : List (Text × Text) := [("!", "!"), ("!!", Tag.standardBeginning)]

/-- Reads directives: a version of which the first number is one, and new handles. -/
def directives : (bound : Nat) → (version : Bool) → (handles : List (Text × Text)) →
    Reading (List (Text × Text))
  | 0, _, _ => refuse .documentStructure
  | bound + 1, version, handles => do
    match ← peek with
    | .directive d =>
      advance
      match d with
      | .version major =>
        if version ∨ major ≠ 1 then refuse .documentStructure
        directives bound true handles
      | .handle handle beginning =>
        if ((handles.lookup handle).isSome : Bool) then refuse .documentStructure
        directives bound version ((handle, beginning) :: handles)
      | .reserved => directives bound version handles
    | _ => return handles

/-- Drops the marks of a document's end. -/
def skipEnds : (bound : Nat) → Reading Unit
  | 0 => return
  | bound + 1 => do if ← accept isDocumentEnd then skipEnds bound

/-- Reads the beginning of a document with its mark; nothing at the end of the text. -/
def documentStart? (bound : Nat) : Reading Bool := do
  skipEnds bound
  match ← peek with
  | .finish => return false
  | _ =>
    let handles ← directives bound false []
    match ← peek with
    | .documentStart =>
      advance
      modify fun r => { r with handles := handles ++ usualHandles }
      return true
    | _ => refuse .documentStructure

/-- Reads the only document, if there is one. -/
def document? (bound : Nat) : Reading (Option Nat) := do
  let root? ← match ← peek with
    | .directive _ | .documentStart | .finish =>
      if ← documentStart? bound then some <$> nodeUnless bound endsDocument true false
      else pure none
    | _ => some <$> node bound true false
  if root?.isSome then
    if ← documentStart? bound then refuse .documentReference
  return root?

/-- The ranges of the code points that a text may hold. -/
def admittedRanges : List (Nat × Nat) :=
  [(0x9, 0xA), (0xD, 0xD), (0x20, 0x7E), (0x85, 0x85), (0xA0, 0xD7FF), (0xE000, 0xFFFD),
    (0x10000, 0x10FFFF)]

/-- The graph of the only document of a text, if there is one. -/
def read? (t : Text) : Except Fault (Option Graph) := do
  if !t.all fun c => c.inRanges admittedRanges then .error .documentCharacter
  let ts := tokens t
  let (root?, r) ← (document? (3 * ts.length + 3)).run ⟨ts, #[], [], 0, usualHandles⟩
  return root?.map fun root => ⟨r.nodes, root⟩

end Graph

end Winnow.Yaml
