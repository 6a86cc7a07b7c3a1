import Stencil.Number.Limit
import Stencil.Text.Digit

/-! # Integers in decimal

Writing an integer in decimal and reading a row of digits, both within the digit limit. -/

namespace Stencil.Decimal

/-- The ASCII digits of a natural number, most significant first. -/
def ofNat (n : Nat) : List Char := Nat.toDigits 10 n

/-- The decimal text of an integer. -/
def ofInt : Int → List Char
  | .ofNat n => ofNat n
  | .negSucc n => '-' :: ofNat (n + 1)

/-- The decimal text of an integer of any size. -/
def text (n : Int) : String := String.ofList (ofInt n)

/-- The decimal text of an integer, unless it has too many digits. -/
def text? (n : Int) : Except Limit String :=
  if n.natAbs < Nat.pow 10 Limit.digits then .ok (text n) else .error .writing

/-- The integer with these digit values and this sign, unless they are too many. -/
def read (negative : Bool) (ds : List Nat) : Except Limit Int :=
  if ds.length ≤ Limit.digits then
    let n : Int := Text.ofDigitValues 10 ds
    .ok (if negative then -n else n)
  else .error (.reading ds.length)

end Stencil.Decimal
