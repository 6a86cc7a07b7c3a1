/-! # Doubles

Binary floating-point numbers of double precision as exact data: a finite one is a sign, a mantissa
and an exponent, and every comparison goes through the number it stands for. -/

namespace Stencil

/-- A **double**. -/
inductive Double where
  /-- The number `± mantissa · 2 ^ exponent`. The mantissa is below `2 ^ 53`, and at least `2 ^ 52`
  unless the exponent is the least one, `-1074`. -/
  | finite (negative : Bool) (mantissa : Nat) (exponent : Int)
  /-- An infinity. -/
  | infinite (negative : Bool)
  /-- Not a number. Each occurrence has a tag of its own, so that it is identical to itself only. -/
  | nan (tag : Nat)
  deriving DecidableEq, Repr

/-- A point of the **extended number line**. -/
inductive Extended where
  /-- Below every number. -/
  | bottom
  /-- A number. -/
  | rational (r : Rat)
  /-- Above every number. -/
  | top
  deriving DecidableEq

namespace Extended

/-- Whether a point lies strictly before another. -/
def lt : Extended → Extended → Bool
  | .bottom, .bottom => false
  | .bottom, _ => true
  | .rational _, .bottom => false
  | .rational r, .rational s => decide (r < s)
  | .rational _, .top => true
  | .top, _ => false

/-- Whether a point lies before another or is it. -/
def le (a b : Extended) : Bool := !b.lt a

end Extended

namespace Double

/-- The least exponent. -/
def minExponent : Int := -1074

/-- The greatest exponent. -/
def maxExponent : Int := 971

/-- The zero of a sign. -/
def zero (negative : Bool) : Double := .finite negative 0 minExponent

/-- `m · 2 ^ q` as a rational number. -/
def scaled (m : Int) (q : Int) : Rat :=
  match q with
  | .ofNat k => ((m * Int.pow 2 k : Int) : Rat)
  | .negSucc k => mkRat m (Nat.pow 2 (k + 1))

/-- The point that a double stands for; a NaN stands for none. -/
def position? : Double → Option Extended
  | .finite negative m q => some (.rational (scaled (if negative then -m else m) q))
  | .infinite true => some .bottom
  | .infinite false => some .top
  | .nan _ => none

/-- Whether a double is zero. -/
def isZero : Double → Bool
  | .finite _ m _ => m == 0
  | _ => false

end Double

end Stencil
