import Stencil.Number.Decimal

/-! # Property paths

A property path is a row of keys into nested data, and the faults that a text of one can have. -/

namespace Stencil

/-- A **key**: one step of a path. -/
inductive Key where
  /-- A position, or an integer key of a mapping. -/
  | index (n : Int)
  /-- A name. -/
  | name (s : String)
  deriving DecidableEq, Repr

/-- A **property path**: its keys, in order of access, and the text that it was read from. -/
structure Path where
  /-- The text, without blanks around it. -/
  text : String
  /-- The keys. -/
  keys : List Key
  deriving DecidableEq, Repr

/-- What is wrong with the text of a path. Positions count characters of the text without the blanks
around it. -/
inductive PathFault where
  /-- There is nothing but blanks. -/
  | empty
  /-- A bracket does not open an index. -/
  | badIndex (position : Nat)
  /-- A point stands first. -/
  | leadingPoint
  /-- A character that cannot follow an index or a name. -/
  | unexpected (c : Char) (position : Nat)
  /-- There is no name where one is needed. -/
  | missingName (position : Nat)
  deriving DecidableEq, Repr

/-- The wording of a fault. -/
def PathFault.reason : PathFault → String
  | .empty => "path is empty"
  | .badIndex position => s!"bad index at position {position}"
  | .leadingPoint => "path starts with '.'"
  | .unexpected c position => s!"unexpected '{c}' at position {position}"
  | .missingName position => s!"missing name at position {position}"

/-- Why a text is not read as a path. -/
inductive PathError where
  /-- The text has a fault. -/
  | malformed (text : String) (fault : PathFault)
  /-- The text has an index of too many digits. -/
  | limit (l : Limit)
  deriving DecidableEq, Repr

/-- The report of a malformed path. -/
def PathError.message : PathError → String
  | .malformed text fault => s!"Invalid property path '{text}': {fault.reason}"
  | .limit l => l.message

end Stencil
