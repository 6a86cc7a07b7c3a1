import Stencil.Yaml.Scalar.Block
import Stencil.Yaml.Scalar.Plain
import Stencil.Yaml.Scalar.Quoted
import Stencil.Yaml.Token

/-! # The layout of a document

The tokens of a text. Indentation opens and closes levels. Whether a node is the key of a mapping
shows only at the colon after it; until then it is a candidate, and the colon puts the token of the
key, and that of a mapping if it begins one, in front of the node. -/

namespace Stencil.Yaml

/-- A node that **may turn out to be a key**. -/
structure Candidate where
  /-- The number of flow collections around it. -/
  flow : Nat
  /-- The number of tokens before it. -/
  position : Nat
  /-- Whether it must be a key, since it stands where the keys of a mapping begin. -/
  required : Bool
  /-- The number of characters before it. -/
  index : Nat
  /-- The number of its line. -/
  line : Nat
  /-- Its column. -/
  column : Nat

/-- A text **as far as its tokens are read**. -/
structure Layout where
  /-- The place that is reached. -/
  cursor : Cursor
  /-- The number of flow collections that are open. -/
  flow : Nat := 0
  /-- The column of the innermost level; before the first one it is `-1`. -/
  indent : Int := -1
  /-- The columns of the levels around it, innermost first. -/
  outer : List Int := []
  /-- Whether a key may begin here. -/
  keyAllowed : Bool := true
  /-- The nodes that may turn out to be keys. -/
  candidates : List Candidate := []
  /-- The tokens so far, last first. -/
  tokens : List Token := []

namespace Layout

/-- The greatest length of a key that no mark announces. -/
def keyLength : Nat := 1024

/-- The characters ahead. -/
def rest (s : Layout) : List Char := s.cursor.rest

/-- Whether no flow collection is open. -/
def inBlock (s : Layout) : Bool := s.flow == 0

/-- Move on by a number of characters. -/
def skip (s : Layout) (n : Nat) : Layout := { s with cursor := s.cursor.skip n }

/-- Add a token. -/
def emit (s : Layout) (t : Token) : Layout := { s with tokens := t :: s.tokens }

/-- Add a token in front of those behind a position. -/
def insert (s : Layout) (position : Nat) (t : Token) : Layout :=
  let behind := s.tokens.length - position
  { s with tokens := s.tokens.take behind ++ t :: s.tokens.drop behind }

/-! ## Levels -/

/-- Close the levels that are indented more than a column. -/
def closeLevels (column : Int) (indent : Int) (tokens : List Token) :
    List Int → Int × List Int × List Token
  | [] => (indent, [], tokens)
  | o :: outer =>
    if column < indent then closeLevels column o (.blockEnd :: tokens) outer
    else (indent, o :: outer, tokens)

/-- Close the levels that are indented more than a column; in flow collections indentation means
nothing. -/
def unwind (s : Layout) (column : Int) : Layout :=
  if s.inBlock then
    let (indent, outer, tokens) := closeLevels column s.indent s.tokens s.outer
    { s with indent := indent, outer := outer, tokens := tokens }
  else s

/-- Open a level at a column, if it is indented more than the innermost one; its token goes to a
position. -/
def openLevel (s : Layout) (column : Nat) (position : Nat) (t : Token) : Layout :=
  if s.inBlock && s.indent < column then
    { s.insert position t with indent := column, outer := s.indent :: s.outer }
  else s

/-! ## Candidates for keys -/

/-- Give up the candidates on other lines and those that are too far back, unless one must be a
key. -/
def dropStale (s : Layout) : Except Fault Layout :=
  let stale (k : Candidate) :=
    k.line != s.cursor.line || decide (keyLength < s.cursor.index - k.index)
  if s.candidates.any fun k => stale k && k.required then .error .malformed
  else .ok { s with candidates := s.candidates.filter (!stale ·) }

/-- Give up the candidate among the nodes of the innermost flow collection, unless it must be a
key. -/
def dropCandidate (s : Layout) : Except Fault Layout :=
  if s.candidates.any fun k => k.flow == s.flow && k.required then .error .malformed
  else .ok { s with candidates := s.candidates.filter (·.flow != s.flow) }

/-- Take what is next for a candidate, if a key may begin here. -/
def addCandidate (s : Layout) : Except Fault Layout :=
  if s.keyAllowed then do
    let s ← s.dropCandidate
    let c := s.cursor
    let required := s.inBlock && s.indent == c.column
    return { s with
      candidates := ⟨s.flow, s.tokens.length, required, c.index, c.line, c.column⟩ :: s.candidates }
  else .ok s

/-! ## Tokens -/

/-- The blanks, line breaks and comments that are next: their number of characters, and whether a
line ends among them. -/
def blanks (s : List Char) : Nat × Bool :=
  let spaces := countWhile (· == ' ') s
  let n := spaces + commentLength (s.drop spaces)
  match _h : s.drop n with
  | [] => (n, false)
  | c :: rest => if isBreak c then (n + 1 + (blanks rest).1, true) else (n, false)
termination_by s.length
decreasing_by
  have := congrArg List.length _h
  simp only [List.length_drop, List.length_cons] at this
  omega

/-- Move on to the next token. On a new line outside of flow collections a key may begin. -/
def toToken (s : Layout) : Layout :=
  let (n, newLine) := blanks s.rest
  { s.skip n with keyAllowed := s.keyAllowed || (newLine && s.inBlock) }

/-- End all levels before a directive, a document marker or the end. -/
def endLevels (s : Layout) : Except Fault Layout := do
  let s ← (s.unwind (-1)).dropCandidate
  return { s with keyAllowed := false }

/-- A document marker. -/
def marker (s : Layout) (t : Token) : Except Fault Layout := do
  let s ← s.endLevels
  return (s.skip 3).emit t

/-- The line of a directive. -/
def directiveLine (s : Layout) (body : List Char) : Except Fault Layout := do
  let s ← s.endLevels
  let (d, after) ← directive body
  return { s with cursor := s.cursor.goto after }.emit (.directive d)

/-- The beginning of a flow collection. -/
def openFlow (s : Layout) (t : Token) : Except Fault Layout := do
  let s ← s.addCandidate
  return ({ s with flow := s.flow + 1, keyAllowed := true }.skip 1).emit t

/-- The end of a flow collection. -/
def closeFlow (s : Layout) (t : Token) : Except Fault Layout := do
  if s.inBlock then throw .malformed
  let s ← s.dropCandidate
  return ({ s with flow := s.flow - 1, keyAllowed := false }.skip 1).emit t

/-- The comma between items. -/
def comma (s : Layout) : Except Fault Layout := do
  let s ← s.dropCandidate
  return ({ s with keyAllowed := true }.skip 1).emit .flowEntry

/-- A mark that begins an item or a key; outside of flow collections it may open a level. -/
def levelMark (s : Layout) (level mark : Token) (keyAllowed : Bool) : Except Fault Layout := do
  if s.inBlock && !s.keyAllowed then throw .malformed
  let s := s.openLevel s.cursor.column s.tokens.length level
  let s ← s.dropCandidate
  return ({ s with keyAllowed := keyAllowed }.skip 1).emit mark

/-- The colon before a value. A candidate becomes the key; else the key is empty. -/
def colon (s : Layout) : Except Fault Layout :=
  match s.candidates.find? (·.flow == s.flow) with
  | some k =>
    let s := { s with candidates := s.candidates.filter (·.flow != s.flow), keyAllowed := false }
    let s := (s.insert k.position .key).openLevel k.column k.position .blockMappingStart
    .ok ((s.skip 1).emit .value)
  | none => s.levelMark .blockMappingStart .value s.inBlock

/-- The name of an anchor or of a reference to one. -/
def named (s : Layout) (token : List Char → Token) : Except Fault Layout := do
  let s ← s.addCandidate
  match anchorName? (s.rest.drop 1) with
  | some (name, after) =>
    return { s with keyAllowed := false, cursor := s.cursor.goto after }.emit (token name)
  | none => throw .malformed

/-- A tag. -/
def tagged (s : Layout) : Except Fault Layout := do
  let s ← s.addCandidate
  match tag? (s.rest.drop 1) with
  | some (t, after) =>
    return { s with keyAllowed := false, cursor := s.cursor.goto after }.emit (.tag t)
  | none => throw .malformed

/-- A block scalar. -/
def block (s : Layout) (folded : Bool) : Except Fault Layout := do
  let s ← s.dropCandidate
  match Block.read? folded s.indent (s.cursor.skip 1) with
  | some (text, after) =>
    return { s with keyAllowed := true, cursor := after }.emit (.scalar ⟨⟨text, true⟩, false⟩)
  | none => throw .malformed

/-- A quoted scalar. -/
def quoted (s : Layout) (double : Bool) : Except Fault Layout := do
  let s ← s.addCandidate
  let (content, after) ← Quoted.read double (s.rest.drop 1)
  return { s with keyAllowed := false, cursor := s.cursor.goto after }.emit (.scalar ⟨content, false⟩)

/-- A plain scalar. -/
def plain (s : Layout) : Except Fault Layout := do
  let s ← s.addCandidate
  let e := Plain.read (!s.inBlock) (s.indent + 1) s.cursor
  return { s with keyAllowed := e.breaks, cursor := e.cursor }.emit (.scalar ⟨⟨e.text, true⟩, true⟩)

/-- The characters that begin no plain scalar, unless what follows says otherwise. -/
def indicators : List Char :=
  ['-', '?', ':', ',', '[', ']', '\x7b', '\x7d', '#', '&', '*', '!', '|', '>', '\x27', '\x22', '%', '@',
    '\x60']

/-- Whether a plain scalar begins with a character before others. -/
def beginsPlain (inBlock : Bool) (c : Char) (after : List Char) : Bool :=
  !(isGap c || indicators.contains c) ||
    (!gapAhead after && (c == '-' || (inBlock && (c == '?' || c == ':'))))

/-- Read the token that begins with a character before others. -/
def readToken (s : Layout) (c : Char) (after : List Char) : Except Fault Layout :=
  let markHere := s.cursor.column == 0 && markerAhead s.rest
  let openHere := !s.inBlock || gapAhead after
  match c with
  | '%' => if s.cursor.column == 0 then s.directiveLine after else .error .malformed
  | '[' => s.openFlow .flowSequenceStart
  | '\x7b' => s.openFlow .flowMappingStart
  | ']' => s.closeFlow .flowSequenceEnd
  | '\x7d' => s.closeFlow .flowMappingEnd
  | ',' => s.comma
  | '*' => s.named .alias
  | '&' => s.named .anchor
  | '!' => s.tagged
  | '\x27' => s.quoted false
  | '\x22' => s.quoted true
  | c =>
    if markHere then s.marker (if c == '-' then .documentStart else .documentEnd)
    else if c == '-' && gapAhead after then s.levelMark .blockSequenceStart .blockEntry true
    else if c == '?' && openHere then s.levelMark .blockMappingStart .key s.inBlock
    else if c == ':' && openHere then s.colon
    else if (c == '|' || c == '>') && s.inBlock then s.block (c == '>')
    else if beginsPlain s.inBlock c after then s.plain
    else .error .malformed

/-- Read the next token. -/
def step (s : Layout) : Except Fault Layout := do
  let s ← s.toToken.dropStale
  let s := s.unwind s.cursor.column
  match s.rest with
  | [] =>
    let s ← s.endLevels
    return s.emit .streamEnd
  | c :: after => s.readToken c after

/-- The tokens that are certain: none that a candidate, or a key before it, may still precede. -/
def certain (s : Layout) : List Token :=
  let candidates := match s.dropStale with
    | .ok s => s.candidates
    | .error _ => s.candidates
  let count := candidates.foldl (fun n k => min n k.position) s.tokens.length
  s.tokens.reverse.take count

/-- Read all tokens. Every one but the last takes at least one character, so that as many steps as
there are characters, and one more, are enough. -/
def run : (steps : Nat) → Layout → Tokens
  | 0, s => ⟨s.certain, .malformed⟩
  | steps + 1, s =>
    match s.step with
    | .error fault => ⟨s.certain, fault⟩
    | .ok next =>
      match next.tokens with
      | .streamEnd :: _ => ⟨next.tokens.reverse, .malformed⟩
      | _ => run steps next

end Layout

/-- **The tokens of a text**; a byte order mark at its beginning does not count. -/
def Tokens.ofText (text : List Char) : Tokens :=
  let text := if text.head? == some '\uFEFF' then text.drop 1 else text
  Layout.run (text.length + 1) { cursor := ⟨text, 0, 0, 0⟩ }

end Stencil.Yaml
