import Stencil.Value.Basic

/-! # Equality of values

Two notions of equality. `Value.equal` is the equality of items and keys inside collections: numbers
and truth values are equal when they stand for the same point of the number line, collections when
their parts are, and a NaN equals only its own occurrence. `Value.strictEqual` is the equality that
conditions use: it keeps truth values apart from numbers. -/

namespace Stencil

/-- Whether two numbers are equal: exactly, whatever their kinds. A NaN equals only itself. -/
def Number.equal (a b : Number) : Bool :=
  match a.position?, b.position? with
  | some p, some q => p == q
  | none, none => a == b
  | _, _ => false

namespace Value

/-- Whether two ranges hold the same integers in the same order. -/
def rangeEqual (a b : Int × Int × Int) : Bool :=
  let n := rangeLength a.1 a.2.1 a.2.2
  n == rangeLength b.1 b.2.1 b.2.2 && (n == 0 || (a.1 == b.1 && (n == 1 || a.2.2 == b.2.2)))

/-- Equality of values that are not collections of values. -/
def atomEqual (a b : Value) : Bool :=
  match a.number?, b.number? with
  | some m, some n => m.equal n
  | some _, none => false
  | none, some _ => false
  | none, none =>
    match a, b with
    | .null, .null => true
    | .undefined, .undefined => true
    | .text s, .text t => s == t
    | .bytes s, .bytes t => s == t
    | .range a b c, .range d e f => rangeEqual (a, b, c) (d, e, f)
    | .stream i _, .stream j _ => i == j
    | .callable f, .callable g => f == g
    | _, _ => false

mutual

/-- Whether two values are **equal** as items of a collection. -/
def equal : Value → Value → Bool
  | .list xs, .list ys => itemsEqual xs ys
  | .tuple xs, .tuple ys => itemsEqual xs ys
  | .map es, .map fs => es.length == fs.length && entriesWithin es fs
  | .object es, .object fs => es.length == fs.length && attributesWithin es fs
  | a, b => atomEqual a b
termination_by structural v => v

/-- Whether two rows of values are equal item by item. -/
def itemsEqual : List Value → List Value → Bool
  | [], [] => true
  | x :: xs, y :: ys => equal x y && itemsEqual xs ys
  | _, _ => false
termination_by structural v => v

/-- Whether every entry has an equal one among others. -/
def entriesWithin : List (Value × Value) → List (Value × Value) → Bool
  | [], _ => true
  | (k, v) :: es, fs => fs.any (fun f => equal k f.1 && equal v f.2) && entriesWithin es fs
termination_by structural v => v

/-- Whether every attribute has an equal one of the same name among others. -/
def attributesWithin : List (String × Value) → List (String × Value) → Bool
  | [], _ => true
  | (name, v) :: es, fs => fs.any (fun f => name == f.1 && equal v f.2) && attributesWithin es fs
termination_by structural v => v

end

/-- Whether two values are **strictly equal**: a truth value equals only the same truth value, and
no text equals a number. -/
def strictEqual (a b : Value) : Bool :=
  match a, b with
  | .bool p, .bool q => p == q
  | .bool _, _ => false
  | _, .bool _ => false
  | a, b => equal a b

/-- Look a key up in the entries of a mapping. -/
def lookup? (key : Value) (entries : List (Value × Value)) : Option Value :=
  (entries.find? fun e => equal key e.1).map (·.2)

/-- Set the value of a key: an equal key keeps its place and its form, a new one goes to the end. -/
def setEntry (key v : Value) : List (Value × Value) → List (Value × Value)
  | [] => [(key, v)]
  | (k, w) :: rest => if equal key k then (k, v) :: rest else (k, w) :: setEntry key v rest

/-- The mapping that holds these entries; of equal keys the first keeps its place, and the last
gives the value. -/
def ofEntries (entries : List (Value × Value)) : Value :=
  .map (entries.foldl (fun es e => setEntry e.1 e.2 es) [])

/-- Set an attribute of a record: one of the same name keeps its place. -/
def setAttribute (name : String) (v : Value) : List (String × Value) → List (String × Value)
  | [] => [(name, v)]
  | (n, w) :: rest => if name == n then (n, v) :: rest else (n, w) :: setAttribute name v rest

/-- The record that holds these attributes. -/
def ofAttributes (attributes : List (String × Value)) : Value :=
  .object (attributes.foldl (fun kept a => setAttribute a.1 a.2 kept) [])

end Value

end Stencil
