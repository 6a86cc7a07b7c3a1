import Stencil.Yaml.Tag
import Stencil.Yaml.Token

/-! # Nodes

The tree of nodes that the tokens of a document describe. A reference to an anchor stands for the node
of the anchor. Where it stands inside of that node it does so once: of the references inside the node that
it stands for, only the kind of the node is kept. -/

namespace Stencil.Yaml

/-- A **node** of a document. -/
inductive Node where
  /-- A scalar. -/
  | scalar (tag : Tag) (content : Content)
  /-- A sequence. -/
  | sequence (tag : Tag) (items : List Node)
  /-- A mapping. -/
  | mapping (tag : Tag) (entries : List (Node × Node))
  /-- The sequence or mapping around this node that has this anchor. -/
  | enclosing (isMapping : Bool) (anchor : List Char)

namespace Node

/-- A scalar that is not written. -/
def empty : Node := .scalar .null {}

mutual

/-- Put a node in the place of the references to its anchor. -/
def expand (anchor : List Char) (whole : Node) : Node → Node
  | .scalar tag c => .scalar tag c
  | .sequence tag items => .sequence tag (expandItems anchor whole items)
  | .mapping tag entries => .mapping tag (expandEntries anchor whole entries)
  | .enclosing isMapping name => if name = anchor then whole else .enclosing isMapping name
termination_by structural n => n

/-- Put a node in the place of the references in the items of a sequence. -/
def expandItems (anchor : List Char) (whole : Node) : List Node → List Node
  | [] => []
  | n :: ns => expand anchor whole n :: expandItems anchor whole ns
termination_by structural ns => ns

/-- Put a node in the place of the references in the entries of a mapping. -/
def expandEntries (anchor : List Char) (whole : Node) : List (Node × Node) → List (Node × Node)
  | [] => []
  | (k, v) :: es => (expand anchor whole k, expand anchor whole v) :: expandEntries anchor whole es
termination_by structural es => es

end

/-- A document **as far as its nodes are read**. -/
structure State where
  /-- The tokens ahead. -/
  tokens : List Token
  /-- What is wrong behind them. -/
  fault : Fault
  /-- The handles of tags, with what they stand for. -/
  handles : List (List Char × List Char)
  /-- The anchors, with their nodes. -/
  anchors : List (List Char × Node) := []

/-- Reading nodes. -/
abbrev Read := StateT State (Except Fault)

/-- The next token. -/
def peek : Read Token := do
  match (← get).tokens with
  | t :: _ => return t
  | [] => throw (← get).fault

/-- Move on by one token. -/
def advance : Read Unit := modify fun s => { s with tokens := s.tokens.drop 1 }

/-- The next token has to be this one. -/
def expect (t : Token) : Read Unit := do
  if (← peek) = t then advance else throw .malformed

/-- Whether the next token is one of these. -/
def ahead (ts : List Token) : Read Bool := return ts.contains (← peek)

/-! ## Properties -/

/-- The **properties** of a node. -/
structure Properties where
  /-- Its anchor. -/
  anchor : Option (List Char)
  /-- The full text of its tag. -/
  tag : Option (List Char)

/-- The full text of a tag; its handle must be known. -/
def fullTag (t : TagText) : Read (List Char) := do
  match t.handle with
  | none => return t.suffix
  | some h =>
    match (← get).handles.lookup h with
    | some start => return start ++ t.suffix
    | none => throw .malformed

/-- An anchor that is next. -/
def anchorAhead : Read (Option (List Char)) := do
  match ← peek with
  | .anchor name =>
    advance
    return some name
  | _ => return none

/-- A tag that is next. -/
def tagAhead : Read (Option TagText) := do
  match ← peek with
  | .tag t =>
    advance
    return some t
  | _ => return none

/-- The properties that are next, in either order. -/
def properties : Read Properties := do
  let before ← anchorAhead
  let tag ← tagAhead
  let anchor ← if before.isNone && tag.isSome then anchorAhead else pure before
  match tag with
  | some t => return ⟨anchor, some (← fullTag t)⟩
  | none => return ⟨anchor, none⟩

/-- Whether the form of a node decides what it is. -/
def Properties.untagged (p : Properties) : Bool := p.tag.isNone || p.tag == some ['!']

/-- The tag of a collection. -/
def Properties.collectionTag (p : Properties) (default : Tag) : Tag :=
  if p.untagged then default else Tag.ofText (p.tag.getD [])

/-- The tag of a scalar. One that is marked with an exclamation mark alone counts as plain. -/
def Properties.scalarTag (p : Properties) (s : Scalar) : Tag :=
  match p.tag with
  | none => if s.plain then Tag.ofPlain s.content.text else .text
  | some tag => if tag == ['!'] then Tag.ofPlain s.content.text else Tag.ofText tag

/-- Set the node of an anchor. -/
def remember (anchor : Option (List Char)) (n : Node) : Read Unit :=
  match anchor with
  | some name => modify fun s => { s with anchors := (name, n) :: s.anchors }
  | none => pure ()

/-- An anchor may be set only once. -/
def checkNew (anchor : Option (List Char)) : Read Unit := do
  match anchor with
  | some name => if ((← get).anchors.lookup name).isSome then throw .malformed
  | none => pure ()

/-- Set the node of an anchor to a collection that was read, in the place of the references inside it. -/
def close (anchor : List Char) (n : Node) : Read Node := do
  let whole := n.expand anchor n
  modify fun s =>
    { s with anchors := (anchor, whole) :: s.anchors.map fun a => (a.1, a.2.expand anchor n) }
  return whole

/-- Read a collection, whose anchor may be referred to within it. -/
def collection (p : Properties) (isMapping : Bool) (read : Read Node) : Read Node := do
  checkNew p.anchor
  match p.anchor with
  | none => read
  | some anchor =>
    remember p.anchor (.enclosing isMapping anchor)
    close anchor (← read)

/-! ## Nodes from tokens -/

/-- The tokens that end an item of an indented collection. -/
def blockStops : List Token := [.key, .value, .blockEnd]

mutual

/-- Read a node. Indented collections are read only in `block`, and a sequence without indentation of
its own only where it is allowed. -/
def read (block flat : Bool) : (fuel : Nat) → Read Node
  | 0 => throw .malformed
  | fuel + 1 => do
    match ← peek with
    | .alias name =>
      advance
      match (← get).anchors.lookup name with
      | some n => return n
      | none => throw .malformed
    | _ =>
      let p ← properties
      let sequence (r : Read (List Node)) : Read Node :=
        collection p false do return .sequence (p.collectionTag .sequence) (← r)
      let mapping (r : Read (List (Node × Node))) : Read Node :=
        collection p true do return .mapping (p.collectionTag .mapping) (← r)
      match ← peek, block, flat with
      | .blockEntry, _, true => sequence (flatItems fuel)
      | .scalar s, _, _ =>
        checkNew p.anchor
        advance
        let n := .scalar (p.scalarTag s) s.content
        remember p.anchor n
        return n
      | .flowSequenceStart, _, _ => advance; sequence (flowItems true fuel)
      | .flowMappingStart, _, _ => advance; mapping (flowEntries true fuel)
      | .blockSequenceStart, true, _ => advance; sequence (blockItems fuel)
      | .blockMappingStart, true, _ => advance; mapping (blockEntries fuel)
      | _, _, _ =>
        if p.anchor.isNone && p.tag.isNone then throw .malformed
        checkNew p.anchor
        let n := .scalar (p.scalarTag ⟨{}, p.untagged⟩) {}
        remember p.anchor n
        return n

/-- Read a node, unless one of these tokens is next; then there is none. -/
def readUnless (stops : List Token) (block flat : Bool) : (fuel : Nat) → Read Node
  | 0 => throw .malformed
  | fuel + 1 => do
    if ← ahead stops then return empty else read block flat fuel

/-- The items of an indented sequence, to its end. -/
def blockItems : (fuel : Nat) → Read (List Node)
  | 0 => throw .malformed
  | fuel + 1 => do
    if ← ahead [.blockEntry] then
      advance
      let n ← readUnless [.blockEntry, .blockEnd] true false fuel
      return n :: (← blockItems fuel)
    else
      expect .blockEnd
      return []

/-- The items of a sequence without indentation of its own. -/
def flatItems : (fuel : Nat) → Read (List Node)
  | 0 => throw .malformed
  | fuel + 1 => do
    if ← ahead [.blockEntry] then
      advance
      let n ← readUnless (.blockEntry :: blockStops) true false fuel
      return n :: (← flatItems fuel)
    else return []

/-- The entries of an indented mapping, to its end. -/
def blockEntries : (fuel : Nat) → Read (List (Node × Node))
  | 0 => throw .malformed
  | fuel + 1 => do
    if ← ahead [.key] then
      advance
      let k ← readUnless blockStops true true fuel
      let v ← valueAfterColon blockStops true fuel
      return (k, v) :: (← blockEntries fuel)
    else if ← ahead [.blockEnd] then
      advance
      return []
    else throw .malformed

/-- The value of an entry, if its colon is next; then one of these tokens may end it at once. -/
def valueAfterColon (stops : List Token) (block : Bool) : (fuel : Nat) → Read Node
  | 0 => throw .malformed
  | fuel + 1 => do
    if ← ahead [.value] then
      advance
      readUnless stops block block fuel
    else return empty

/-- The items of a flow sequence, to its end. An item with a colon is a mapping of one entry. -/
def flowItems (first : Bool) : (fuel : Nat) → Read (List Node)
  | 0 => throw .malformed
  | fuel + 1 => do
    if ← ahead [.flowSequenceEnd] then
      advance
      return []
    else
      if !first then expect .flowEntry
      if ← ahead [.key] then
        advance
        let k ← readUnless [.value, .flowEntry, .flowSequenceEnd] false false fuel
        let v ← valueAfterColon [.flowEntry, .flowSequenceEnd] false fuel
        return .mapping .mapping [(k, v)] :: (← flowItems false fuel)
      else if ← ahead [.flowSequenceEnd] then
        advance
        return []
      else
        let n ← read false false fuel
        return n :: (← flowItems false fuel)

/-- The entries of a flow mapping, to its end. A key without a colon has no value. -/
def flowEntries (first : Bool) : (fuel : Nat) → Read (List (Node × Node))
  | 0 => throw .malformed
  | fuel + 1 => do
    if ← ahead [.flowMappingEnd] then
      advance
      return []
    else
      if !first then expect .flowEntry
      if ← ahead [.key] then
        advance
        let k ← readUnless [.value, .flowEntry, .flowMappingEnd] false false fuel
        let v ← valueAfterColon [.flowEntry, .flowMappingEnd] false fuel
        return (k, v) :: (← flowEntries false fuel)
      else if ← ahead [.flowMappingEnd] then
        advance
        return []
      else
        let n ← read false false fuel
        return (n, empty) :: (← flowEntries false fuel)

end

/-! ## Documents -/

/-- The handles that need no directive. -/
def defaultHandles : List (List Char × List Char) :=
  [(['!'], ['!']), (['!', '!'], Tag.standardStart)]

/-- Move on behind the directives. The version may be given once, and every handle once. -/
def directives : (fuel : Nat) → (versioned : Bool) → Read Unit
  | 0, _ => throw .malformed
  | fuel + 1, versioned => do
    match ← peek with
    | .directive (.version major) =>
      if versioned || major != 1 then throw .malformed
      advance
      directives fuel true
    | .directive (.handle name start) =>
      if ((← get).handles.lookup name).isSome then throw .malformed
      advance
      modify fun s => { s with handles := (name, start) :: s.handles }
      directives fuel versioned
    | .directive .reserved =>
      advance
      directives fuel versioned
    | _ => return ()

/-- Move on behind markers of the end of a document. -/
def documentEnds : (fuel : Nat) → Read Unit
  | 0 => throw .malformed
  | fuel + 1 => do
    if ← ahead [.documentEnd] then
      advance
      documentEnds fuel
    else return ()

/-- The root of the only document. Without a marker at its beginning there must be something in it. -/
def document (fuel : Nat) : Read (Option Node) := do
  match ← peek with
  | .streamEnd => return none
  | .directive _ | .documentStart =>
    directives fuel false
    expect .documentStart
    modify fun s => { s with handles := s.handles ++ defaultHandles }
    let root ← match ← peek with
      | .directive _ | .documentStart | .documentEnd | .streamEnd => pure empty
      | _ => read true false fuel
    documentEnds fuel
    expect .streamEnd
    return some root
  | _ =>
    modify fun s => { s with handles := defaultHandles }
    let root ← read true false fuel
    documentEnds fuel
    expect .streamEnd
    return some root

/-- **The root node of a text**, if there is anything in it. Between two tokens there are less than
four calls. -/
def ofTokens? (tokens : Tokens) : Except Fault (Option Node) :=
  (·.1) <$> (document (4 * tokens.items.length + 8)).run ⟨tokens.items, tokens.fault, [], []⟩

end Node

end Stencil.Yaml
