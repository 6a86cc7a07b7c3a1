import Stencil.Path.Basic
import Stencil.Text.Blank

/-! # Compile errors

What can be wrong with the source of a template. -/

namespace Stencil

/-- What is wrong with a directive. -/
inductive DirectiveFault where
  /-- There is no directive of this name. -/
  | unknownDirective
  /-- The arguments are not of the form of a condition. -/
  | conditionForm
  /-- The arguments are not of the form of an iteration. -/
  | iterationForm
  /-- There is no operator of this spelling. -/
  | unknownOperator (spelling : String)
  /-- A path in the arguments is malformed. -/
  | path (text : String) (fault : PathFault)
  /-- A fault in the words of a caller. -/
  | other (reason : String)
  deriving DecidableEq, Repr

/-- The wording of a fault. -/
def DirectiveFault.reason : DirectiveFault → String
  | .unknownDirective => "unknown directive"
  | .conditionForm => "expected '[!]<path> [<op> <operand>]'"
  | .iterationForm => "expected '<path> as [<key> to] <value>'"
  | .unknownOperator spelling => s!"unknown operator '{spelling}'"
  | .path text fault => (PathError.malformed text fault).message
  | .other reason => reason

/-- Why a source is **not a template**. -/
inductive CompileError where
  /-- An opening marker is not a directive. -/
  | invalidDirective (name arguments : String) (fault : DirectiveFault) (offset : Option Int)
  /-- An end marker names another directive than the one that is open. -/
  | mismatchedClose (expected found : String) (offset : Option Int)
  /-- The source ends within a directive. -/
  | unclosed (directive : String) (offset : Option Int)
  /-- Directives are nested deeper than the limit. -/
  | tooDeep (depth : Int) (offset : Option Int)
  /-- An integer in the source has too many digits. -/
  | limit (l : Limit)
  /-- What was given as the source is no text. -/
  | notText
  /-- Something that is no token, of this name, stands among the tokens. -/
  | unexpectedToken (name : String)
  /-- An error in the words of a caller. -/
  | other (text : String) (offset : Option Int)
  deriving DecidableEq, Repr

namespace CompileError

/-- Point a report at a place of the source. -/
def located (text : String) : Option Int → String
  | none => text
  | some offset => text ++ " (at offset " ++ Decimal.text offset ++ ")"

/-- The report of a compile error. -/
def message : CompileError → String
  | .invalidDirective name arguments fault offset =>
    let marker := Text.trimmed (name ++ " " ++ arguments)
    located s!"Invalid directive '{marker}': {fault.reason}" offset
  | .mismatchedClose expected found offset =>
    located s!"Expecting end of {expected} but got end of {found}" offset
  | .unclosed directive offset => located s!"Unclosed {directive} branch" offset
  | .tooDeep depth offset =>
    located ("Directives nested deeper than " ++ Decimal.text depth) offset
  | .limit l => l.message
  | .notText => "\x60source\x60 must be a string containing a template"
  | .unexpectedToken name => "Unexpected token: " ++ name
  | .other text offset => located text offset

end CompileError

end Stencil
