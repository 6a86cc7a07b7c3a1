import Stencil.Directive.Iteration
import Stencil.Markup.Segment

/-! # Trees

A template as a forest of branches: texts, conditional parts and repeated parts. -/

namespace Stencil

/-- A **branch** of a template. -/
inductive Branch where
  /-- A text with placeholders. -/
  | text (segments : List Segment)
  /-- A part that appears if a condition holds. -/
  | conditional (condition : Condition) (children : List Branch)
  /-- A part that is repeated for every pair of a collection. -/
  | repeated (iteration : Iteration) (children : List Branch)

/-- The **header** of a directive: what its opening marker says. -/
inductive Header where
  /-- The header of a conditional part. -/
  | condition (c : Condition)
  /-- The header of a repeated part. -/
  | iteration (it : Iteration)

namespace Header

/-- The name of the directive. -/
def directive : Header → String
  | .condition _ => Condition.directive
  | .iteration _ => Iteration.directive

/-- The branch of a directive with its content. -/
def branch (children : List Branch) : Header → Branch
  | .condition c => .conditional c children
  | .iteration it => .repeated it children

/-- The names of all directives. -/
def directives : List String := [Condition.directive, Iteration.directive]

/-- Read the arguments of the directive of a name. -/
def parse (name arguments : String) (offset : Int) : Except CompileError Header :=
  if name = Condition.directive then .condition <$> Condition.parse arguments (some offset)
  else if name = Iteration.directive then .iteration <$> Iteration.parse arguments (some offset)
  else .error (.invalidDirective name arguments .unknownDirective (some offset))

end Header

end Stencil
