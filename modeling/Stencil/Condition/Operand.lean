import Stencil.Path.Parser
import Stencil.Value.Basic

/-! # Operands

The right side of a comparison: a keyword, a quoted text, a number, or else a path. -/

namespace Stencil

/-- An **operand**. -/
inductive Operand where
  /-- A value that is written out. -/
  | literal (v : Value)
  /-- A path, to be resolved when the condition is tested. -/
  | path (p : Path)

namespace Operand

/-- The values with a name of their own. -/
def keyword? (token : List Char) : Option Value :=
  match String.ofList token with
  | "true" => some (.bool true)
  | "false" => some (.bool false)
  | "null" => some .null
  | "undefined" => some .undefined
  | _ => none

/-- The characters that quote a text: the double quote, the single quote and the backquote. -/
def quotes : List Char := ['\x22', '\x27', '\x60']

/-- The text between two equal quotes, whatever it contains. -/
def quotedText? : List Char → Option (List Char)
  | [] => none
  | q :: rest => if quotes.contains q && rest.getLast? == some q then some rest.dropLast else none

/-- **Read an operand.** Blanks around it do not count. -/
def parse (token : String) : Except PathError Operand :=
  let t := Text.trim token.toList
  match keyword? t with
  | some v => .ok (.literal v)
  | none =>
    match quotedText? t with
    | some s => .ok (.literal (.text (String.ofList s)))
    | none =>
      match Number.ofText? (String.ofList t) with
      | .error l => .error (.limit l)
      | .ok (some n) => .ok (.literal (.ofNumber n))
      | .ok none => .path <$> Path.parse (String.ofList t)

end Operand

end Stencil
