import LazyLint.Yaml.Form
import LazyLint.Yaml.Token

/-!
# The nodes of a document

A document is a graph, because a reference may lead to a node around it: nodes are kept in a table
and hold each other by number. Reading follows the grammar of tokens; a node gets its number before
the nodes inside it do.
-/

namespace LazyLint.Yaml

/-- A node; nodes inside it are given by their numbers. -/
inductive Node where
  | scalar (tag : Tag) (text : Text)
  | sequence (tag : Tag) (items : List Nat)
  | mapping (tag : Tag) (entries : List (Nat × Nat))

/-- A document: its nodes, of which the one with number zero is the root. -/
abbrev Graph := Array Node

/-- What is known between two nodes. -/
structure Builder where
  tokens : List Token
  nodes : Graph := #[]
  /-- The numbers of the nodes with a name. -/
  anchors : List (List Char × Nat) := []
  /-- What handles of tags stand for. -/
  handles : List (Text × Text) := []

namespace Builder

/-- A step of building, which may be at fault. -/
abbrev Build := StateT Builder (Except Fault)

def malformed {α : Type} : Build α :=
  throw .malformed

/-- The next token. A fault among the tokens is met where it is looked at. -/
def peek : Build Token := do
  match (← get).tokens with
  | .fault f :: _ => throw f
  | t :: _ => return t
  | [] => malformed

def drop : Build Unit :=
  modify fun b => { b with tokens := b.tokens.drop 1 }

def add (n : Node) : Build Nat := do
  let b ← get
  set { b with nodes := b.nodes.push n }
  return b.nodes.size

/-- Put a node in the place kept for it. -/
def put (i : Nat) (n : Node) : Build Unit :=
  modify fun b => { b with nodes := b.nodes.setIfInBounds i n }

/-- A scalar that is not there. -/
def absent : Build Nat :=
  add (.scalar .null [])

/-! ## Properties of nodes -/

def anchor? : Build (Option (List Char)) := do
  match ← peek with
  | .anchor name =>
    drop
    return some name
  | _ => return none

def tag? : Build (Option Text) := do
  match ← peek with
  | .tag none suffix =>
    drop
    return some suffix
  | .tag (some handle) suffix =>
    drop
    match (← get).handles.find? fun h => h.1 == handle with
    | some (_, stem) => return some (stem ++ suffix)
    | none => malformed
  | _ => return none

/-- The tag and the anchor of a node, in either order. -/
def properties : Build (Option Text × Option (List Char)) := do
  match ← anchor? with
  | some name => return (← tag?, some name)
  | none =>
    match ← tag? with
    | some tag => return (some tag, ← anchor?)
    | none => return (none, none)

/-- The tag that asks for the form of a node to decide. -/
def isOpenTag (tag : Option Text) : Bool :=
  tag.all (· == Text.ofString "!")

/-- The tag of a collection. -/
def collectionTag (tag : Option Text) (default : Tag) : Tag :=
  if isOpenTag tag then default else (tag.map Tag.ofName).getD default

/-- The tag of a scalar: its form decides for a plain one without a tag, and for any with a tag that
leaves it open. -/
def scalarTag (tag : Option Text) (text : Text) (isPlain : Bool) : Tag :=
  match tag with
  | none => if isPlain then Tag.ofPlain text else .text
  | some name => if isOpenTag tag then Tag.ofPlain text else Tag.ofName name

/-- A new node, under its name if it has one. A name is given once. -/
def addNamed (name : Option (List Char)) (n : Node) : Build Nat := do
  let i ← add n
  match name with
  | none => return i
  | some name =>
    if (← get).anchors.any fun a => a.1 == name then malformed
    modify fun b => { b with anchors := (name, i) :: b.anchors }
    return i

/-! ## The grammar -/

def isBlockEntry (t : Token) : Bool := t matches .blockEntry
def isFlowEntry (t : Token) : Bool := t matches .flowEntry
def isKey (t : Token) : Bool := t matches .key
def isValue (t : Token) : Bool := t matches .value
def isBlockEnd (t : Token) : Bool := t matches .blockEnd
def isFlowSequenceEnd (t : Token) : Bool := t matches .flowSequenceEnd
def isFlowMappingEnd (t : Token) : Bool := t matches .flowMappingEnd

/-- Past the next token if it is of a kind. -/
def accept (p : Token → Bool) : Build Bool := do
  if p (← peek) then
    drop
    return true
  else return false

mutual

/-- A node: with `inBlock` blocks may start here, with `bare` the entries of a sequence may stand
without a block of their own. -/
def node : Nat → Bool → Bool → Build Nat
  | 0, _, _ => malformed
  | fuel + 1, inBlock, bare => do
    match ← peek with
    | .reference name =>
      drop
      match (← get).anchors.find? fun a => a.1 == name with
      | some (_, i) => return i
      | none => malformed
    | _ =>
      -- a collection gets its number before its items are read: they may refer to it
      let (tag, name) ← properties
      let seqTag := collectionTag tag .sequence
      let mapTag := collectionTag tag .mapping
      let t ← peek
      match t with
      | .scalar text isPlain =>
        drop
        addNamed name (.scalar (scalarTag tag text isPlain) text)
      | .flowSequenceStart =>
        drop
        let i ← addNamed name (.sequence seqTag [])
        put i (.sequence seqTag (← flowItems fuel true))
        return i
      | .flowMappingStart =>
        drop
        let i ← addNamed name (.mapping mapTag [])
        put i (.mapping mapTag (← flowEntries fuel true))
        return i
      | _ =>
        if bare && isBlockEntry t then
          let i ← addNamed name (.sequence seqTag [])
          put i (.sequence seqTag (← bareItems fuel))
          return i
        else if inBlock && (t matches .blockSequenceStart) then
          drop
          let i ← addNamed name (.sequence seqTag [])
          put i (.sequence seqTag (← blockItems fuel))
          return i
        else if inBlock && (t matches .blockMappingStart) then
          drop
          let i ← addNamed name (.mapping mapTag [])
          put i (.mapping mapTag (← blockEntries fuel))
          return i
        -- properties alone stand for an empty scalar
        else if tag.isSome || name.isSome then
          addNamed name (.scalar (scalarTag tag [] true) [])
        else malformed

/-- A node, or nothing if a token of a kind comes next. -/
def nodeUnless : Nat → Bool → Bool → (Token → Bool) → Build Nat
  | 0, _, _, _ => malformed
  | fuel + 1, inBlock, bare, p => do
    if p (← peek) then absent else node fuel inBlock bare

/-- The items of a sequence that is a block. -/
def blockItems : Nat → Build (List Nat)
  | 0 => malformed
  | fuel + 1 => do
    if ← accept isBlockEntry then
      let item ← nodeUnless fuel true false fun t => isBlockEntry t || isBlockEnd t
      return item :: (← blockItems fuel)
    else if ← accept isBlockEnd then return []
    else malformed

/-- The items of a sequence without a block of its own. -/
def bareItems : Nat → Build (List Nat)
  | 0 => malformed
  | fuel + 1 => do
    if ← accept isBlockEntry then
      let item ← nodeUnless fuel true false fun t =>
        isBlockEntry t || isKey t || isValue t || isBlockEnd t
      return item :: (← bareItems fuel)
    else return []

/-- The entries of a mapping that is a block. -/
def blockEntries : Nat → Build (List (Nat × Nat))
  | 0 => malformed
  | fuel + 1 => do
    let ends (t : Token) : Bool := isKey t || isValue t || isBlockEnd t
    if ← accept isKey then
      let key ← nodeUnless fuel true true ends
      let value ← if ← accept isValue then nodeUnless fuel true true ends else absent
      return (key, value) :: (← blockEntries fuel)
    else if ← accept isBlockEnd then return []
    else malformed

/-- The items of a sequence in brackets; all but the first come after a comma. An item may be a map
of one entry. -/
def flowItems : Nat → Bool → Build (List Nat)
  | 0, _ => malformed
  | fuel + 1, first => do
    if ← accept isFlowSequenceEnd then return []
    if ! first then
      if ! (← accept isFlowEntry) then malformed
    if ← accept isFlowSequenceEnd then return []
    let ends (t : Token) : Bool := isFlowEntry t || isFlowSequenceEnd t
    let item ←
      if ← accept isKey then
        let i ← add (.mapping .mapping [])
        let key ← nodeUnless fuel false false fun t => isValue t || ends t
        let value ← if ← accept isValue then nodeUnless fuel false false ends else absent
        put i (.mapping .mapping [(key, value)])
        pure i
      else node fuel false false
    return item :: (← flowItems fuel false)

/-- The entries of a mapping in braces; all but the first come after a comma. -/
def flowEntries : Nat → Bool → Build (List (Nat × Nat))
  | 0, _ => malformed
  | fuel + 1, first => do
    if ← accept isFlowMappingEnd then return []
    if ! first then
      if ! (← accept isFlowEntry) then malformed
    if ← accept isFlowMappingEnd then return []
    let ends (t : Token) : Bool := isFlowEntry t || isFlowMappingEnd t
    let entry ←
      if ← accept isKey then
        let key ← nodeUnless fuel false false fun t => isValue t || ends t
        let value ← if ← accept isValue then nodeUnless fuel false false ends else absent
        pure (key, value)
      else
        let key ← node fuel false false
        pure (key, ← absent)
    return entry :: (← flowEntries fuel false)

end

/-! ## Documents -/

/-- What handles stand for unless a directive says otherwise. -/
def defaultHandles : List (Text × Text) :=
  [("!", "!"), ("!!", coreStem)].map fun (h, s) => (Text.ofString h, Text.ofString s)

/-- The directives before a document: the handles that they name. A version is given once and has to
be of the first kind, and so is each handle. -/
def directives : Nat → Bool → List (Text × Text) → Build (List (Text × Text))
  | 0, _, _ => malformed
  | fuel + 1, versioned, handles => do
    match ← peek with
    | .directive d =>
      drop
      match d with
      | .version major _ =>
        if versioned || major ≠ 1 then malformed
        directives fuel true handles
      | .handle handle stem =>
        if handles.any fun h => h.1 == handle then malformed
        directives fuel versioned ((handle, stem) :: handles)
      | .other => directives fuel versioned handles
    | _ => return handles

/-- Past the marks of a document's end. -/
def skipEnds : Nat → Build Unit
  | 0 => malformed
  | fuel + 1 => do
    if ← accept (· matches .documentEnd) then skipEnds fuel

/-- Nothing but marks of the end follows. -/
def streamEnd (fuel : Nat) : Build Unit := do
  skipEnds fuel
  if ! ((← peek) matches .streamEnd) then malformed

/-- The only document, if there is one. -/
def document (fuel : Nat) : Build Unit := do
  match ← peek with
  | .streamEnd => return
  | .directive _ | .documentStart =>
    let handles ← directives fuel false []
    if ! (← accept (· matches .documentStart)) then malformed
    modify fun b => { b with handles := handles ++ defaultHandles }
    match ← peek with
    | .directive _ | .documentStart | .documentEnd | .streamEnd =>
      let _ ← absent
    | _ =>
      let _ ← node fuel true false
    streamEnd fuel
  | _ =>
    modify fun b => { b with handles := defaultHandles }
    let _ ← node fuel true false
    streamEnd fuel

end Builder

/-- The graph of a text; it is empty if the text holds no document. -/
def graph (source : List Char) : Except Fault Graph := do
  let ts := tokens source
  let ((), b) ← (Builder.document (4 * ts.length + 8)).run { tokens := ts }
  return b.nodes

end LazyLint.Yaml
