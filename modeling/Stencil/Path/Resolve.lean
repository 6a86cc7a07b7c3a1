import Stencil.Path.Basic
import Stencil.Value.Equality

/-! # Resolving paths

Following the keys of a path into a value. Mappings are looked up by key, sequences by position, and
records and numbers by public attribute; whatever is missing is `Value.undefined`. -/

namespace Stencil

namespace Key

/-- The natural number that a name of ASCII digits writes; no other name writes one. -/
def digits? (name : String) : Option (Except Limit Int) :=
  match name.toList with
  | [] => none
  | cs =>
    if cs.all Char.isDigit then some (Decimal.read false (cs.filterMap Text.asciiDigit?)) else none

/-- A key as the key of a mapping. -/
def value : Key → Value
  | .index n => .int n
  | .name s => .text s

/-- The other spelling of a key: an integer as its decimal text, and a name of digits as the number
it writes. -/
def other? : Key → Except Limit (Option Value)
  | .index n => .ok (some (.text (Decimal.text n)))
  | .name s =>
    match digits? s with
    | none => .ok none
    | some n => (fun n => some (.int n)) <$> n

/-- A key as a position in a sequence. -/
def position? : Key → Except Limit (Option Int)
  | .index n => .ok (some n)
  | .name s =>
    match digits? s with
    | none => .ok none
    | some n => some <$> n

end Key

namespace Value

/-- The methods of integers and truth values. -/
def integerMethods : List String :=
  ["as_integer_ratio", "bit_count", "bit_length", "conjugate", "to_bytes"]

/-- The methods of doubles. -/
def doubleMethods : List String := ["as_integer_ratio", "conjugate", "hex", "is_integer"]

/-- The members of streams. -/
def streamMembers : List String := ["close", "gi_code", "gi_frame", "send", "throw"]

/-- The attributes of an integer, or of a truth value as the integer `n`. -/
def integerAttribute? (n : Int) (kind : String) (method : String → Callable) (name : String) :
    Option Value :=
  if name == "real" || name == "numerator" then some (.int n)
  else if name == "imag" then some (.int 0)
  else if name == "denominator" then some (.int 1)
  else if name == "from_bytes" then some (.callable (.ofKind kind name))
  else if integerMethods.contains name then some (.callable (method name))
  else none

/-- The public attributes of values that are neither mappings nor sequences. -/
def attribute? (v : Value) (name : String) : Option Value :=
  match v with
  | .object attributes => (attributes.find? fun a => a.1 == name).map (·.2)
  | .int n => integerAttribute? n v.kind (.ofInt n) name
  | .bool b => integerAttribute? (if b then 1 else 0) v.kind (.ofBool b) name
  | .float x =>
    if name == "real" then some v
    else if name == "imag" then some (.float (Double.zero false))
    else if name == "fromhex" then some (.callable (.ofKind v.kind name))
    else if doubleMethods.contains name then some (.callable (.ofFloat x name))
    else none
  | .stream id _ =>
    if name == "gi_running" || name == "gi_suspended" then some (.bool false)
    else if name == "gi_yieldfrom" then some .null
    else if streamMembers.contains name then some (.callable (.ofStream id name))
    else none
  | _ => none

/-- Whether a value is a sequence. -/
def isSequence : Value → Bool
  | .text _ | .bytes _ | .list _ | .tuple _ | .range _ _ _ => true
  | _ => false

/-- The item of a sequence at a position. -/
def item? : Value → Nat → Option Value
  | .text s, i => s.toList[i]?.map fun c => .text (String.singleton c)
  | .bytes bs, i => bs[i]?.map fun b => .int b.toNat
  | .list items, i => items[i]?
  | .tuple items, i => items[i]?
  | .range start stop step, i =>
    if i < rangeLength start stop step then some (.int (start + i * step)) else none
  | _, _ => none

/-- Whether the length of a sequence fits an index; only ranges can be longer. -/
def lengthFits : Value → Bool
  | .range start stop step => rangeLength start stop step < Limit.lengths
  | _ => true

/-- The value of a key in a mapping: under the key itself, else under its other spelling. -/
def entry (entries : List (Value × Value)) (key : Key) : Except Limit Value :=
  match lookup? key.value entries with
  | some v => .ok v
  | none => do
    match ← key.other? with
    | none => return .undefined
    | some k => return (lookup? k entries).getD .undefined

/-- The item that a key means in a sequence. A negative position is outside. -/
def element (v : Value) (key : Key) : Except Limit Value := do
  match ← key.position? with
  | none => return .undefined
  | some i =>
    if i < 0 then return .undefined
    else if v.lengthFits then return (v.item? i.toNat).getD .undefined
    else throw .length

/-- **One step** of a path. Attributes are public: their names do not begin with an underscore. -/
def step (v : Value) (key : Key) : Except Limit Value :=
  match v with
  | .null | .undefined => .ok .undefined
  | .map entries => entry entries key
  | v =>
    if v.isSequence then element v key
    else
      match key with
      | .index _ => .ok .undefined
      | .name s => .ok (if s.startsWith "_" then .undefined else (attribute? v s).getD .undefined)

/-- Follow a row of keys. -/
def follow (v : Value) : List Key → Except Limit Value
  | [] => .ok v
  | key :: keys => do
    let w ← step v key
    follow w keys

/-- **Resolve a path** in a value. -/
def resolve (v : Value) (path : Path) : Except Limit Value := follow v path.keys

end Value

end Stencil
