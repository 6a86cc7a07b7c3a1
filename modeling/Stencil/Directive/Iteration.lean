import Stencil.Condition.Basic
import Stencil.Text.Word

/-! # Iterations

The header of a directive that repeats its content for every pair of a collection:
a path, the word "as", and a name for the value, with an optional name for the key before it. -/

namespace Stencil

/-- An **iteration**: what is walked, and the names of its parts. -/
structure Iteration where
  /-- The collection. -/
  collection : Path
  /-- The name of the value of a pair. -/
  valueName : String
  /-- The name of the key of a pair, if it has one. -/
  keyName : Option String
  deriving DecidableEq, Repr

namespace Iteration

/-- Whether a character outside brackets belongs to the path of an iteration. -/
def inPath (c : Char) : Bool := !(Text.isBlank c || c == '[')

/-- Whether a word is a name. -/
def isName (word : List Char) : Bool := !word.isEmpty && word.all Text.isWord

/-- The names that follow the path, by the words that follow it: the key name, if any, and the value
name. -/
def names? (words : List (List Char)) : Option (Option String × String) :=
  match words with
  | ['a', 's'] :: [value] => if isName value then some (none, String.ofList value) else none
  | ['a', 's'] :: key :: ['t', 'o'] :: [value] =>
    if isName key && isName value then some (some (String.ofList key), String.ofList value)
    else none
  | _ => none

/-- Split a text without blanks around it into the text of a path and the names that follow it. -/
def split? (s : List Char) : Option (String × Option String × String) :=
  let (path, rest) := Directive.pathText inPath s
  if path.isEmpty then none
  else (names? (Text.words rest)).map fun names => (String.ofList path, names)

/-- The name of the directive that repeats its content. -/
def directive : String := "each"

/-- **Read an iteration.** Blanks around it do not count. -/
def parse (arguments : String) (offset : Option Int) : Except CompileError Iteration :=
  match split? (Text.trim arguments.toList) with
  | none => .error (.invalidDirective directive arguments .iterationForm offset)
  | some (path, key, value) => do
    let collection ← (Path.parse path).mapError (Condition.pathError directive arguments offset)
    return ⟨collection, value, key⟩

end Iteration

end Stencil
