import Stencil.Markup.Token
import Stencil.Tree.Basic

/-! # From tokens to trees

The tokens are taken one by one. What is open is kept as a stack of frames, each with the branches
that stand before it at its own level, and the branches of the innermost level are kept apart. -/

namespace Stencil.Tree

/-- An **open directive**. -/
structure Frame where
  /-- Its header. -/
  header : Header
  /-- The offset of its opening marker. -/
  offset : Int
  /-- The branches before it at its level, last first. -/
  before : List Branch

/-- A tree **under construction**. -/
structure State where
  /-- The branches of the innermost level so far, last first. -/
  level : List Branch
  /-- The open directives, innermost first. -/
  frames : List Frame

/-- Nothing is read and nothing is open. -/
def State.start : State := ⟨[], []⟩

/-- The name of what is open when no directive is. -/
def rootName : String := "root"

/-- Add a branch to the innermost level. -/
def State.add (s : State) (b : Branch) : State := { s with level := b :: s.level }

/-- Open a directive. The name is checked before the depth, and the depth before the arguments. -/
def State.opened (s : State) (maxDepth : Option Int) (offset : Int) (name arguments : String) :
    Except CompileError State :=
  if Header.directives.contains name then
    if maxDepth.any (· < (s.frames.length : Int) + 1) then
      .error (.tooDeep (maxDepth.getD 0) (some offset))
    else do
      let header ← Header.parse name arguments offset
      return ⟨[], ⟨header, offset, s.level⟩ :: s.frames⟩
  else .error (.invalidDirective name arguments .unknownDirective (some offset))

/-- Close the innermost directive. -/
def State.closed (s : State) (offset : Int) (name : String) : Except CompileError State :=
  match s.frames with
  | [] => .error (.mismatchedClose rootName name (some offset))
  | f :: frames =>
    if f.header.directive = name then .ok ⟨f.header.branch s.level.reverse :: f.before, frames⟩
    else .error (.mismatchedClose f.header.directive name (some offset))

/-- Take one token. -/
def State.take (maxDepth : Option Int) (s : State) : Token → Except CompileError State
  | .text _ content => do
    let segments ← (Segment.scan content).mapError .limit
    return s.add (.text segments)
  | .opening offset name arguments => s.opened maxDepth offset name arguments
  | .closing offset name => s.closed offset name

/-- The finished tree; nothing may be open. -/
def State.finish (s : State) : Except CompileError (List Branch) :=
  match s.frames with
  | [] => .ok s.level.reverse
  | f :: _ => .error (.unclosed f.header.directive (some f.offset))

/-- **Build the tree** of a row of tokens, with a limit to the depth of nesting. -/
def build (tokens : List Token) (maxDepth : Option Int) : Except CompileError (List Branch) := do
  let s ← tokens.foldlM (State.take maxDepth) .start
  s.finish

/-- Build the tree of a row in which there may be things that are no tokens, given by name. -/
def buildMixed (items : List (String ⊕ Token)) (maxDepth : Option Int) :
    Except CompileError (List Branch) := do
  let take (s : State) : String ⊕ Token → Except CompileError State
    | .inl name => .error (.unexpectedToken name)
    | .inr token => s.take maxDepth token
  let s ← items.foldlM take .start
  s.finish

end Stencil.Tree
