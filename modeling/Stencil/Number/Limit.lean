/-! # Limits of integer text and of lengths

Integers are unbounded, but their decimal text is not: reading or writing more than
`Limit.digits` digits is refused, and so is asking for a length beyond the machine's index range. -/

namespace Stencil

/-- A conversion that was **refused because of its size**. -/
inductive Limit where
  /-- A text of this many digits was to be read as an integer. -/
  | reading (count : Nat)
  /-- An integer of too many digits was to be written. -/
  | writing
  /-- The length of a range does not fit an index. -/
  | length
  deriving DecidableEq, Repr

namespace Limit

/-- The greatest number of decimal digits that is read or written. -/
def digits : Nat := 4300

/-- The first length that is too long for an index. -/
def lengths : Nat := Nat.pow 2 63

/-- What is reported for a refused conversion. -/
def message : Limit → String
  | .reading count =>
    s!"Exceeds the limit ({digits} digits) for integer string conversion: value has {count} digits; "
      ++ "use sys.set_int_max_str_digits() to increase the limit"
  | .writing =>
    s!"Exceeds the limit ({digits} digits) for integer string conversion; "
      ++ "use sys.set_int_max_str_digits() to increase the limit"
  | .length => "Python int too large to convert to C ssize_t"

end Limit

end Stencil
