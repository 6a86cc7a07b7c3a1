import Stencil.Number.Decimal
import Stencil.Number.Rounding

/-! # The shortest decimal of a double

The text of a double has the fewest digits that still read back as that double, and of those the
digits nearest to it. For one digit, two digits and so on, the two neighbours of the double on the
decimal grid are tested in exact arithmetic; the first grid with a hit wins. -/

namespace Stencil.Double

/-- The numbers that round to a double `m · 2 ^ q`, in units of `2 ^ unit`. -/
structure Cell where
  /-- The lower end. -/
  low : Nat
  /-- The double itself. -/
  mid : Nat
  /-- The upper end. -/
  high : Nat
  /-- The exponent of the unit. -/
  unit : Int
  /-- Whether the ends round to the double, too. -/
  closed : Bool

/-- The cell of `m · 2 ^ q`. It reaches halfway to both neighbours; below a power of two the lower
neighbour is only half as far. An end goes to the even mantissa. -/
def cell (m : Nat) (q : Int) : Cell where
  low := if m = Nat.pow 2 52 ∧ minExponent < q then 4 * m - 1 else 4 * m - 2
  mid := 4 * m
  high := 4 * m + 2
  unit := q - 2
  closed := m % 2 == 0

namespace Cell

/-- `x · 2 ^ unit`, on the common scale of both grids. -/
def binary (cl : Cell) (k : Int) (x : Nat) : Nat :=
  x * Nat.pow 2 cl.unit.toNat * Nat.pow 10 (-k).toNat

/-- `c · 10 ^ k`, on the common scale of both grids. -/
def decimal (cl : Cell) (k : Int) (c : Nat) : Nat :=
  c * Nat.pow 10 k.toNat * Nat.pow 2 (-cl.unit).toNat

/-- Whether `c · 10 ^ k` rounds to the double. -/
def holds (cl : Cell) (k : Int) (c : Nat) : Bool :=
  let x := cl.decimal k c
  if cl.closed then cl.binary k cl.low ≤ x && x ≤ cl.binary k cl.high
  else cl.binary k cl.low < x && x < cl.binary k cl.high

/-- The neighbour of the double on the grid of step `10 ^ k` that rounds to it: of two the nearer,
of two equally near ones the even one. -/
def onGrid? (cl : Cell) (k : Int) : Option Nat :=
  let mid := cl.binary k cl.mid
  let c := mid / cl.decimal k 1
  match cl.holds k c, cl.holds k (c + 1) with
  | true, true =>
    let twice := 2 * mid
    let half := cl.decimal k (2 * c + 1)
    some (if twice < half then c else if half < twice then c + 1 else c + c % 2)
  | true, false => some c
  | false, true => some (c + 1)
  | false, false => none

/-- The least `p` with the double below `10 ^ p`, found from its binary size: the logarithm of two to
the base ten is `0.30103` to five places. -/
def point (cl : Cell) : Int :=
  let guess := ((Nat.log2 cl.mid : Int) + cl.unit) * 30103 / 100000
  ([guess, guess + 1].find? fun p => cl.binary p cl.mid < cl.decimal p 1).getD (guess + 2)

end Cell

/-- Drop the zeros at the end of a row of digits. -/
def dropZeros (ds : List Char) : List Char := (ds.reverse.dropWhile (· == '0')).reverse

/-- The shortest digits of `m · 2 ^ q` for a positive `m`, with the place of the point: the number is
`0.ds · 10 ^ point`. Seventeen digits are enough for every double. -/
def shortest (m : Nat) (q : Int) : List Char × Int :=
  let cl := cell m q
  let p := cl.point
  let hit := (List.range 17).findSome? fun n =>
    let k := p - (n + 1 : Nat)
    (cl.onGrid? k).map fun c => (c, k)
  let (c, k) := hit.getD (cl.binary (p - 17) cl.mid / cl.decimal (p - 17) 1, p - 17)
  let ds := Decimal.ofNat c
  (dropZeros ds, ds.length + k)

/-- The **layout** of a decimal text. -/
structure Layout where
  /-- The least place of the point that is still written without an exponent. -/
  leastPoint : Int
  /-- The greatest place of the point that is still written without an exponent. -/
  greatestPoint : Int
  /-- The least number of digits of an exponent. -/
  exponentDigits : Nat

/-- Doubles are written without an exponent from one ten-thousandth up to below `10 ^ 16`, and an
exponent has at least two digits. -/
def layout : Layout := ⟨-3, 16, 2⟩

/-- Lay out the digits `0.ds · 10 ^ point`. A number without an exponent always shows a point with a
digit on either side; one with an exponent shows a point only between digits. -/
def Layout.write (ly : Layout) (ds : List Char) (point : Int) : List Char :=
  if ly.leastPoint ≤ point && point ≤ ly.greatestPoint then
    if point ≤ 0 then '0' :: '.' :: (List.replicate (-point).toNat '0' ++ ds)
    else
      let whole := ds.take point.toNat
      let part := ds.drop point.toNat
      whole ++ List.replicate (point.toNat - whole.length) '0' ++
        '.' :: (if part.isEmpty then ['0'] else part)
  else
    let e := point - 1
    let es := Decimal.ofNat e.natAbs
    let tail := (if e < 0 then '-' else '+') ::
      (List.replicate (ly.exponentDigits - es.length) '0' ++ es)
    match ds with
    | [] => 'e' :: tail
    | [d] => d :: 'e' :: tail
    | d :: rest => d :: '.' :: (rest ++ 'e' :: tail)

/-- The decimal text of a double. -/
def text : Double → String
  | .finite negative m q =>
    let body := if m = 0 then ['0', '.', '0'] else
      let (ds, point) := shortest m q
      layout.write ds point
    String.ofList (if negative then '-' :: body else body)
  | .infinite negative => if negative then "-inf" else "inf"
  | .nan _ => "nan"

end Stencil.Double
