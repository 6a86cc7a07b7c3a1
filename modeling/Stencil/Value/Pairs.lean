import Stencil.Value.Equality

/-! # Pairs of a collection

A collection as a row of pairs of key and value. Mappings give their entries, everything else that
can be walked gives its items with their positions, and all other values give none. -/

namespace Stencil.Value

/-- A row of values with their positions. -/
def enumerate (items : List Value) : List (Value × Value) :=
  items.mapIdx fun i v => (.int i, v)

/-- **The pairs of a value**, a stream being taken as not yet walked. -/
def pairs : Value → List (Value × Value)
  | .map entries => entries
  | .text s => enumerate (s.toList.map fun c => .text (String.singleton c))
  | .bytes bs => enumerate (bs.map fun b => .int b.toNat)
  | .list items | .tuple items | .stream _ items => enumerate items
  | .range start stop step => enumerate ((rangeItems start stop step).map .int)
  | _ => []

end Stencil.Value
