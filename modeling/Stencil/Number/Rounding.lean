import Stencil.Number.Double

/-! # The nearest double

Rounding a ratio of naturals, and hence a number in decimal notation, to the nearest double; a tie
goes to the even mantissa. -/

namespace Stencil

/-- The natural number nearest to `num / den`; of two equally near ones the even one. -/
def roundDiv (num den : Nat) : Nat :=
  let q := num / den
  let twice := 2 * (num % den)
  if twice < den then q else if den < twice then q + 1 else q + q % 2

namespace Double

/-- The double nearest to `± num / den`. The unit is the power of two that leaves 53 binary digits,
but at least the least one; a mantissa rounded up to `2 ^ 53` is halved. -/
def ofRatio (negative : Bool) (num den : Nat) : Double :=
  if num = 0 then zero negative
  else
    let guess : Int := (Nat.log2 num : Int) - Nat.log2 den
    let below : Bool :=
      if 0 ≤ guess then num < den * Nat.pow 2 guess.toNat
      else num * Nat.pow 2 (-guess).toNat < den
    let q : Int := max (if below then guess - 53 else guess - 52) minExponent
    let m : Nat :=
      if 0 ≤ q then roundDiv num (den * Nat.pow 2 q.toNat)
      else roundDiv (num * Nat.pow 2 (-q).toNat) den
    let (m, q) := if m = Nat.pow 2 53 then (Nat.pow 2 52, q + 1) else (m, q)
    if maxExponent < q then .infinite negative else .finite negative m q

/-- The double nearest to `± m · 10 ^ e`. Numbers out of reach of every finite double are settled
by their size alone: `10 ^ 400` is beyond the greatest one, and below `2 ^ -1100` all round to zero
(`10 ^ e ≤ 2 ^ (3 * e)` for a negative `e`). -/
def ofDecimal (negative : Bool) (m : Nat) (e : Int) : Double :=
  if m = 0 then zero negative
  else if 400 < e then .infinite negative
  else if e < 0 && (Nat.log2 m : Int) + 3 * e < -1200 then zero negative
  else if 0 ≤ e then ofRatio negative (m * Nat.pow 10 e.toNat) 1
  else ofRatio negative m (Nat.pow 10 (-e).toNat)

end Double

end Stencil
