import Stencil.Value.Display
import Stencil.Value.Order

/-! # Comparison operators

The six operators of conditions, and what they say of two values. Equality is strict; an ordering
operator reads a text that looks like a number as one when the other side is a number, and is false
between values without an order. -/

namespace Stencil

/-- A comparison **operator**. -/
inductive Operator where
  /-- Strictly before. -/
  | less
  /-- Strictly after. -/
  | greater
  /-- Before or at the same place. -/
  | atMost
  /-- After or at the same place. -/
  | atLeast
  /-- Strictly equal. -/
  | same
  /-- Not strictly equal. -/
  | different
  deriving DecidableEq, Repr

namespace Operator

/-- All operators. -/
def all : List Operator := [.less, .greater, .atMost, .atLeast, .same, .different]

/-- The canonical spelling. -/
def text : Operator → String
  | .less => "<"
  | .greater => ">"
  | .atMost => "<="
  | .atLeast => ">="
  | .same => "==="
  | .different => "!=="

/-- The operator of a canonical spelling. -/
def ofText? (s : String) : Option Operator := all.find? fun op => op.text == s

/-- The operator of a spelling that conditions accept: both equality signs may be shortened. -/
def ofSpelling? (s : String) : Option Operator :=
  if s == "==" then some .same else if s == "!=" then some .different else ofText? s

@[simp] theorem ofText?_text (op : Operator) : ofText? op.text = some op := by
  cases op <;> decide

@[simp] theorem ofSpelling?_text (op : Operator) : ofSpelling? op.text = some op := by
  cases op <;> decide

end Operator

/-- What a comparison came to. -/
structure Verdict where
  /-- Whether it holds. -/
  holds : Bool
  /-- The two sides, as they were compared, when they have no order. -/
  clash : Option (Value × Value)

namespace Verdict

/-- A verdict between comparable values. -/
def plain (holds : Bool) : Verdict := ⟨holds, none⟩

end Verdict

namespace Value

/-- The number that a text looks like, as a value; any other text stays as it is. -/
def numeric (s : String) : Except Limit Value := do
  match ← Number.ofText? s with
  | some n => return .ofNumber n
  | none => return .text s

/-- The two sides of an ordering: a text beside a number is read as a number if it looks like one. -/
def coerce (l r : Value) : Except Limit (Value × Value) :=
  match l, r with
  | l, .text s => if l.isNumber then (fun v => (l, v)) <$> numeric s else .ok (l, .text s)
  | .text s, r => if r.isNumber then (fun v => (v, r)) <$> numeric s else .ok (.text s, r)
  | l, r => .ok (l, r)

end Value

namespace Operator

/-- Whether an ordering operator holds at a standing. -/
def admits : Operator → Standing → Bool
  | .less, s => s == .less
  | .greater, s => s == .greater
  | .atMost, s => s == .less || s == .same
  | .atLeast, s => s == .greater || s == .same
  | .same, s => s == .same
  | .different, s => s != .same

/-- **Apply an ordering operator** to two values. -/
def order (op : Operator) (l r : Value) : Except Limit Verdict := do
  let (l, r) ← l.coerce r
  match l.compare r with
  | .incomparable => return ⟨false, some (l, r)⟩
  | s => return .plain (op.admits s)

/-- **Apply an operator** to two values. -/
def apply (op : Operator) (l r : Value) : Except Limit Verdict :=
  match op with
  | .same => .ok (.plain (l.strictEqual r))
  | .different => .ok (.plain (!l.strictEqual r))
  | op => op.order l r

end Operator

/-- Why a comparison by name fails. -/
inductive ComparisonError where
  /-- There is no operator of this canonical spelling. -/
  | unknownOperator (name : String)
  /-- A text of too many digits was to be read as a number. -/
  | limit (l : Limit)
  deriving DecidableEq, Repr

/-- The report of a failed comparison. -/
def ComparisonError.message : ComparisonError → String
  | .unknownOperator name => Text.quoted name
  | .limit l => l.message

/-- Apply the operator of a canonical spelling. The sides are brought to numbers before the spelling
is looked up. -/
def Operator.applyNamed (name : String) (l r : Value) : Except ComparisonError Verdict :=
  match ofText? name with
  | some op => (op.apply l r).mapError .limit
  | none => do
    let _ ← (l.coerce r).mapError .limit
    throw (.unknownOperator name)

end Stencil
