import Stencil.Number.Shortest
import Stencil.Text.Quoted
import Stencil.Value.Basic

/-! # Text of values

The two texts of a value: `Value.scalar?` is what a placeholder shows, and `Value.display` is how a
value is named in messages. -/

namespace Stencil.Value

/-- The text that a placeholder shows for a value; only texts, numbers and truth values have one. -/
def scalar? : Value → Except Limit (Option String)
  | .bool b => .ok (some (if b then "true" else "false"))
  | .text s => .ok (some s)
  | .int n => some <$> Decimal.text? n
  | .float x => .ok (some x.text)
  | _ => .ok none

/-- The name of a callable in messages. -/
def callableName : Callable → String
  | .function => "<built-in function len>"
  | .ofInt _ name => s!"<built-in method {name} of int object>"
  | .ofBool _ name => s!"<built-in method {name} of bool object>"
  | .ofFloat _ name => s!"<built-in method {name} of float object>"
  | .ofStream _ name => s!"<built-in method {name} of generator object>"
  | .ofKind _ name => s!"<built-in method {name} of type object>"

/-- A value without parts, in messages. -/
def atomDisplay : Value → String
  | .null => "None"
  | .undefined => "UNDEFINED"
  | .bool b => if b then "True" else "False"
  | .int n => Decimal.text n
  | .float x => x.text
  | .text s => Text.quoted s
  | .bytes bs => Text.quotedBytes bs
  | .range start stop step =>
    let ends := Decimal.text start ++ ", " ++ Decimal.text stop
    if step == 1 then "range(" ++ ends ++ ")"
    else "range(" ++ ends ++ ", " ++ Decimal.text step ++ ")"
  | .stream _ _ => "<generator object>"
  | .callable f => callableName f
  | _ => ""

mutual

/-- A value in messages. -/
def display : Value → String
  | .list items => "[" ++ ", ".intercalate (displayItems items) ++ "]"
  | .tuple [x] => "(" ++ display x ++ ",)"
  | .tuple items => "(" ++ ", ".intercalate (displayItems items) ++ ")"
  | .map entries => "\x7b" ++ ", ".intercalate (displayEntries entries) ++ "\x7d"
  | .object attributes => "namespace(" ++ ", ".intercalate (displayAttributes attributes) ++ ")"
  | v => atomDisplay v
termination_by structural v => v

/-- The items of a list or tuple in messages. -/
def displayItems : List Value → List String
  | [] => []
  | x :: xs => display x :: displayItems xs
termination_by structural v => v

/-- The entries of a mapping in messages. -/
def displayEntries : List (Value × Value) → List String
  | [] => []
  | (k, v) :: es => (display k ++ ": " ++ display v) :: displayEntries es
termination_by structural v => v

/-- The attributes of a record in messages; one without a name is left out. -/
def displayAttributes : List (String × Value) → List String
  | [] => []
  | (name, v) :: rest =>
    if name.isEmpty then displayAttributes rest
    else (name ++ "=" ++ display v) :: displayAttributes rest
termination_by structural v => v

end

end Stencil.Value
