import Stencil.Number.Numeral

/-! # Values

The values that a template is rendered against. They are plain data; what tells two occurrences of a
NaN, a stream or a method apart is written into them. -/

namespace Stencil

/-- A **callable**: something that can be found in the data but neither shown nor walked. Two of them
are equal only if they are the same one. A number has no identity here, so that a method belongs to its
value: methods of equal integers are one, also where they would be told apart by the objects that they
are bound to. The members of a stream that are records of its execution, as its code and its frame, count
as callables without attributes. -/
inductive Callable where
  /-- The one free-standing function. -/
  | function
  /-- A method of an integer. -/
  | ofInt (n : Int) (name : String)
  /-- A method of a truth value. -/
  | ofBool (b : Bool) (name : String)
  /-- A method of a double. -/
  | ofFloat (x : Double) (name : String)
  /-- A member of a stream. -/
  | ofStream (id : Nat) (name : String)
  /-- A method that all values of one kind share. -/
  | ofKind (kind name : String)
  deriving DecidableEq, Repr

/-- A **value**. -/
inductive Value where
  /-- The value that is present but nothing. -/
  | null
  /-- The value of whatever is absent. -/
  | undefined
  /-- A truth value. -/
  | bool (b : Bool)
  /-- An integer. -/
  | int (n : Int)
  /-- A double. -/
  | float (x : Double)
  /-- A text. -/
  | text (s : String)
  /-- A row of bytes. -/
  | bytes (bs : List UInt8)
  /-- A list. -/
  | list (items : List Value)
  /-- A tuple. -/
  | tuple (items : List Value)
  /-- A mapping, in order of insertion; no two keys are equal. -/
  | map (entries : List (Value × Value))
  /-- A record with named attributes. -/
  | object (attributes : List (String × Value))
  /-- The integers from `start` up or down to but without `stop`, in steps of `step`. -/
  | range (start stop step : Int)
  /-- A stream: it yields its items once, and every occurrence has an identity. -/
  | stream (id : Nat) (items : List Value)
  /-- A callable. -/
  | callable (f : Callable)

namespace Value

/-- The number of integers in a range. -/
def rangeLength (start stop step : Int) : Nat :=
  if 0 < step then ((stop - start + step - 1) / step).toNat
  else if step < 0 then ((start - stop - step - 1) / -step).toNat
  else 0

/-- The integers of a range. -/
def rangeItems (start stop step : Int) : List Int :=
  (List.range (rangeLength start stop step)).map fun (i : Nat) => start + i * step

/-- A value as a number; a truth value counts as zero or one. -/
def number? : Value → Option Number
  | .bool b => some (.int (if b then 1 else 0))
  | .int n => some (.int n)
  | .float x => some (.float x)
  | _ => none

/-- Whether a value is a number proper: an integer or a double, but no truth value. -/
def isNumber : Value → Bool
  | .int _ | .float _ => true
  | _ => false

/-- Whether a value is a text. -/
def isText : Value → Bool
  | .text _ => true
  | _ => false

/-- A number as a value. -/
def ofNumber : Number → Value
  | .int n => .int n
  | .float x => .float x

/-- Whether a value **counts as true**: nothing, zero and everything empty do not. -/
def truth : Value → Bool
  | .null | .undefined => false
  | .bool b => b
  | .int n => n != 0
  | .float x => !x.isZero
  | .text s => !s.isEmpty
  | .bytes bs => !bs.isEmpty
  | .list items | .tuple items => !items.isEmpty
  | .map entries => !entries.isEmpty
  | .range start stop step => rangeLength start stop step != 0
  | .object _ | .stream _ _ | .callable _ => true

/-- The name of the kind of a value, as errors give it. -/
def kind : Value → String
  | .null => "NoneType"
  | .undefined => "_Undefined"
  | .bool _ => "bool"
  | .int _ => "int"
  | .float _ => "float"
  | .text _ => "str"
  | .bytes _ => "bytes"
  | .list _ => "list"
  | .tuple _ => "tuple"
  | .map _ => "dict"
  | .object _ => "SimpleNamespace"
  | .range _ _ _ => "range"
  | .stream _ _ => "generator"
  | .callable _ => "builtin_function_or_method"

end Value

end Stencil
