import Stencil.Condition.Operand
import Stencil.Condition.Operator
import Stencil.Directive.PathText
import Stencil.Error.Compile
import Stencil.Path.Resolve

/-! # Conditions

A condition tests whether a path resolves to something that counts as true, or compares it with an
operand; a mark of negation turns the left side into a truth value first. -/

namespace Stencil

/-- What a condition asks of its left side. -/
inductive Test where
  /-- It counts as true. -/
  | truthy
  /-- It stands in a relation to an operand. -/
  | compare (op : Operator) (operand : Operand)

/-- A **condition**. -/
structure Condition where
  /-- Whether the left side is negated. -/
  negated : Bool
  /-- The left side. -/
  path : Path
  /-- What is asked of it. -/
  test : Test

namespace Condition

/-- The characters of operators. -/
def isMark (c : Char) : Bool := c == '<' || c == '>' || c == '!' || c == '='

/-- Whether a character outside brackets belongs to the path of a condition. -/
def inPath (c : Char) : Bool := !(Text.isBlank c || isMark c || c == '[')

/-- Whether a text is a whole operand: a quoted text without its quote inside, or anything without
blanks. -/
def isOperand (s : List Char) : Bool :=
  match s with
  | [] => false
  | q :: rest =>
    (Operand.quotes.contains q && (Text.cut? q rest).any (·.2.isEmpty)) || s.all (!Text.isBlank ·)

/-- Split a comparison into operator and operand: the operator has as many marks as leave an operand,
at most three. -/
def splitComparison? (s : List Char) : Option (String × String) :=
  let marks := s.takeWhile isMark
  [3, 2, 1].findSome? fun n =>
    let operand := Text.trimLeft (s.drop n)
    if n ≤ marks.length && isOperand operand then
      some (String.ofList (s.take n), String.ofList operand)
    else none

/-- A condition as it is **written**: whether it is negated, the text of its path, and the texts of
operator and operand if it compares. -/
structure Written where
  /-- Whether there is a mark of negation. -/
  negated : Bool
  /-- The text of the path. -/
  path : String
  /-- Operator and operand. -/
  comparison : Option (String × String)
  deriving DecidableEq, Repr

/-- Split a text without blanks around it into the parts of a condition. -/
def split? (s : List Char) : Option Written :=
  let negated := s.head? == some '!'
  let t := if negated then Text.trimLeft (s.drop 1) else s
  let (path, rest) := Directive.pathText inPath t
  if path.isEmpty then none
  else if rest.isEmpty then some ⟨negated, String.ofList path, none⟩
  else (splitComparison? (Text.trimLeft rest)).map fun c => ⟨negated, String.ofList path, some c⟩

/-- The error that a faulty path in a directive means. -/
def pathError (name arguments : String) (offset : Option Int) : PathError → CompileError
  | .malformed text fault => .invalidDirective name arguments (.path text fault) offset
  | .limit l => .limit l

/-- The name of the directive that tests a condition. -/
def directive : String := "if"

/-- **Read a condition.** Blanks around it do not count. -/
def parse (arguments : String) (offset : Option Int) : Except CompileError Condition :=
  let invalid fault := CompileError.invalidDirective directive arguments fault offset
  match split? (Text.trim arguments.toList) with
  | none => .error (invalid .conditionForm)
  | some written => do
    let path ← (Path.parse written.path).mapError (pathError directive arguments offset)
    match written.comparison with
    | none => return ⟨written.negated, path, .truthy⟩
    | some (spelling, operand) =>
      match Operator.ofSpelling? spelling with
      | none => throw (invalid (.unknownOperator spelling))
      | some op =>
        let operand ← (Operand.parse operand).mapError (pathError directive arguments offset)
        return ⟨written.negated, path, .compare op operand⟩

/-- The value of an operand. -/
def operandValue (scope : Value) : Operand → Except Limit Value
  | .literal v => .ok v
  | .path p => scope.resolve p

/-- The left side of a condition. -/
def left (c : Condition) (scope : Value) : Except Limit Value := do
  let v ← scope.resolve c.path
  return if c.negated then .bool !v.truth else v

/-- **Test a condition** in a scope. -/
def test? (c : Condition) (scope : Value) : Except Limit Verdict := do
  let l ← c.left scope
  match c.test with
  | .truthy => return .plain l.truth
  | .compare op operand => do
    let r ← operandValue scope operand
    op.apply l r

end Condition

end Stencil
