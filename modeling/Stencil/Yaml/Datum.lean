import Stencil.Value.Equality
import Stencil.Yaml.Atom
import Stencil.Yaml.Layout
import Stencil.Yaml.Node

/-! # Data of documents

The data that nodes stand for. Mappings are read level by level, the outer ones first, so that of
several faults the one on the outermost level counts. -/

namespace Stencil.Yaml

/-- A **datum** of a document. -/
inductive Datum where
  /-- A value without parts. -/
  | value (v : Value)
  /-- A text with half of a surrogate pair in it, as far as it can be shown. -/
  | brokenText (s : String)
  /-- A date or a point in time, by its name in messages. -/
  | moment (display : String)
  /-- A sequence. -/
  | sequence (items : List Datum)
  /-- A mapping. -/
  | mapping (entries : List (Datum × Datum))
  /-- A set. -/
  | set (members : List Datum)
  /-- A sequence or mapping around this datum. -/
  | enclosing (isMapping : Bool)

namespace Datum

/-- Nothing. -/
def null : Datum := .value .null

/-- Whether a datum can be the key of a mapping. -/
def isKey : Datum → Bool
  | .value _ | .brokenText _ | .moment _ => true
  | _ => false

/-- Whether two keys are equal. -/
def sameKey : Datum → Datum → Bool
  | .value v, .value w => v.equal w
  | .brokenText s, .brokenText t => s == t
  | .moment s, .moment t => s == t
  | _, _ => false

/-- Set the value of a key: an equal key keeps its place, a new one goes to the end. -/
def setEntry (k v : Datum) : List (Datum × Datum) → List (Datum × Datum)
  | [] => [(k, v)]
  | (l, w) :: rest => if sameKey k l then (l, v) :: rest else (l, w) :: setEntry k v rest

/-- The entries of a mapping in which a later value of an equal key counts. -/
def ofEntries (entries : List (Datum × Datum)) : List (Datum × Datum) :=
  entries.foldl (fun es e => setEntry e.1 e.2 es) []

/-- A text as a datum. -/
def ofContent (c : Content) : Datum :=
  let s := String.ofList c.text
  if c.isText then .value (.text s) else .brokenText s

end Datum

/-- What a node gives: a **datum and the faults** in it, each with its level. -/
structure Built where
  /-- The datum, if there is no fault. -/
  datum : Datum
  /-- The faults, in order, with their levels. -/
  faults : List (Nat × Fault) := []

namespace Built

/-- No datum, by reason of a fault. -/
def failed (level : Nat) (f : Fault) : Built := ⟨.null, [(level, f)]⟩

/-- Whether a tag is of a collection, which is checked on the level below. -/
def isCollection : Tag → Bool
  | .sequence | .orderedMap | .pairs | .mapping | .set => true
  | _ => false

/-- A node of the wrong kind for its tag. -/
def misplaced (level : Nat) (tag : Tag) : Built :=
  failed (if isCollection tag then level + 1 else level) .malformed

/-- The datum of a scalar under a tag for scalars. -/
def atom (tag : Tag) (c : Content) : Except Fault Datum :=
  let constructed (e : Except ConstructionError Value) : Except Fault Datum :=
    (e.map Datum.value).mapError .construction
  match tag with
  | .null => .ok .null
  | .bool => constructed (Value.bool <$> Atom.bool c.text)
  | .int => constructed (Value.int <$> Atom.int c.text)
  | .float => constructed (Value.float <$> Atom.float c.text)
  | .timestamp =>
    ((Moment.ofText (Tag.withoutLineEnd c.text)).map Datum.moment).mapError .construction
  | .text => .ok (.ofContent c)
  | .binary =>
    match Atom.bytes? c.text with
    | some bs => .ok (.value (.bytes bs))
    | none => .error .malformed
  | _ => .error .malformed

/-- What a scalar gives. -/
def scalar (level : Nat) (tag : Tag) (c : Content) : Built :=
  match atom tag c with
  | .ok d => ⟨d, []⟩
  | .error f => if isCollection tag then misplaced level tag else failed level f

/-- The sequence of the data of several nodes. -/
def sequence (items : List Built) : Built := ⟨.sequence (items.map (·.datum)), items.flatMap (·.faults)⟩

/-- A fault at a key that can be none. -/
def keyFaults (level : Nat) (k : Built) : List (Nat × Fault) :=
  k.faults ++ if k.datum.isKey then [] else [(level, .malformed)]

/-- A mapping on a level. -/
def mapping (level : Nat) (entries : List (Built × Built)) : Built :=
  ⟨.mapping (Datum.ofEntries (entries.map fun e => (e.1.datum, e.2.datum))),
    entries.flatMap fun e => keyFaults level e.1 ++ e.2.faults⟩

/-- The set of the keys of a mapping. -/
def asSet (b : Built) : Built :=
  match b.datum with
  | .mapping entries => { b with datum := .set (entries.map (·.1)) }
  | _ => b

end Built

/-- The entries that a mapping has **after merging**. -/
structure Merged where
  /-- The entries of other mappings. -/
  merged : List (Built × Built) := []
  /-- Its own entries. -/
  own : List (Built × Built) := []
  /-- Whether something is merged that is no mapping. -/
  fails : Bool := false

/-- All entries: its own ones count more, and so come last. -/
def Merged.entries (m : Merged) : List (Built × Built) := m.merged ++ m.own

namespace Node

/-- The tag of a node. -/
def tag : Node → Option Tag
  | .scalar t _ | .sequence t _ | .mapping t _ => some t
  | .enclosing _ _ => none

/-- The scalar that a node stands for where a scalar is wanted: of a mapping, the value of its
standing key. -/
def standing? : Node → Option Content
  | .scalar _ c => some c
  | .mapping _ entries => standingIn? entries
  | _ => none
where
  /-- The scalar among the entries of a mapping. -/
  standingIn? : List (Node × Node) → Option Content
    | [] => none
    | (k, v) :: rest => if k.tag = some .standing then standing? v else standingIn? rest

/-- A key that stands for the value of its mapping is a text. -/
def standingKey (level : Nat) : Node → Built
  | .scalar _ c => ⟨.ofContent c, []⟩
  | _ => .failed level .malformed

mutual

/-- What a node gives on a level. -/
def build (level : Nat) : Node → Built
  | .scalar tag c => .scalar level tag c
  | .enclosing isMapping _ => ⟨.enclosing isMapping, []⟩
  | .sequence tag items =>
    match tag with
    | .sequence => .sequence (buildItems (level + 1) items)
    | .orderedMap | .pairs => .sequence (buildPairs (level + 1) items)
    | tag => .misplaced level tag
  | .mapping tag entries =>
    let m := buildEntries (level + 1) entries
    let b : Built :=
      if m.fails then .failed (level + 1) .malformed else .mapping (level + 1) m.entries
    match tag with
    | .mapping => b
    | .set => b.asSet
    | tag =>
      match standing?.standingIn? entries with
      | some c => .scalar level tag c
      | none => .misplaced level tag
termination_by structural n => n

/-- What the items of a sequence give. -/
def buildItems (level : Nat) : List Node → List Built
  | [] => []
  | n :: ns => build level n :: buildItems level ns
termination_by structural ns => ns

/-- What mappings of one entry each give. -/
def buildPairs (level : Nat) : List Node → List Built
  | [] => []
  | n :: ns => buildPair level n :: buildPairs level ns
termination_by structural ns => ns

/-- What a mapping of one entry gives. -/
def buildPair (level : Nat) : Node → Built
  | .mapping _ [e] => buildPlainEntry level e
  | _ => .failed level .malformed
termination_by structural n => n

/-- What an entry gives in which no key is special. -/
def buildPlainEntry (level : Nat) : Node × Node → Built
  | (k, v) => .sequence [build level k, build level v]
termination_by structural e => e

/-- What the entries of a mapping give. -/
def buildEntries (level : Nat) : List (Node × Node) → Merged
  | [] => {}
  | (k, v) :: rest =>
    let m := buildEntries level rest
    if k.tag = some .merge then
      let s := buildSource level v
      { m with merged := s.entries ++ m.merged, fails := s.fails || m.fails }
    else
      let key := if k.tag = some .standing then standingKey level k else build level k
      { m with own := (key, build level v) :: m.own }
termination_by structural es => es

/-- The entries that a mapping, or a sequence of mappings, gives to another. -/
def buildSource (level : Nat) : Node → Merged
  | .mapping _ entries => buildEntries level entries
  | .sequence _ items => buildSources level items
  | .enclosing _ _ => {}
  | .scalar _ _ => { fails := true }
termination_by structural n => n

/-- The entries of several mappings, of which the first counts most, and so comes last. -/
def buildSources (level : Nat) : List Node → Merged
  | [] => {}
  | n :: ns =>
    let m := buildSources level ns
    let s := buildMember level n
    ⟨[], m.entries ++ s.entries, s.fails || m.fails⟩
termination_by structural ns => ns

/-- The entries of one of several mappings. -/
def buildMember (level : Nat) : Node → Merged
  | .mapping _ entries => buildEntries level entries
  | .enclosing _ _ => {}
  | _ => { fails := true }
termination_by structural n => n

end

end Node

/-- The fault that counts: the first one on the outermost level. -/
def Built.fault? (b : Built) : Option Fault :=
  let least : Option (Nat × Fault) → Nat × Fault → Option (Nat × Fault)
    | none, f => some f
    | some best, f => if f.1 < best.1 then some f else some best
  (b.faults.foldl least none).map (·.2)

/-- **Read a document**: its datum, which is nothing if there is nothing in the text. -/
def Datum.ofText (text : List Char) : Except Fault Datum := do
  if !text.all isAllowed then throw .malformed
  match ← Node.ofTokens? (Tokens.ofText text) with
  | none => return .null
  | some root =>
    let b := root.build 0
    match b.fault? with
    | some f => throw f
    | none => return b.datum

end Stencil.Yaml
