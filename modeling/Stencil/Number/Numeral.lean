import Stencil.Number.Decimal
import Stencil.Number.Rounding
import Stencil.Text.Blank

/-! # Numerals

Text that looks like a number, and the number it means. Digits of every script count; an integer is
a sign and digits alone, and all other numerals are doubles. -/

namespace Stencil

/-- A **number**: an integer of any size or a double. -/
inductive Number where
  /-- An integer. -/
  | int (n : Int)
  /-- A double. -/
  | float (x : Double)
  deriving DecidableEq, Repr

/-- The point of the number line that a number stands for; a NaN stands for none. -/
def Number.position? : Number → Option Extended
  | .int n => some (.rational n)
  | .float x => x.position?

/-- A **numeral** as it is written: digit values instead of characters. -/
inductive Numeral where
  /-- A sign and digits. -/
  | integer (negative : Bool) (digits : List Nat)
  /-- A sign, digits around a point and an exponent. -/
  | decimal (negative : Bool) (whole fraction : List Nat) (exponent : Int)
  deriving DecidableEq, Repr

namespace Numeral

/-- Split off a sign; the flag tells whether it is a minus. -/
def sign : List Char → Bool × List Char
  | '+' :: rest => (false, rest)
  | '-' :: rest => (true, rest)
  | s => (false, s)

/-- Split off a run of decimal digits. -/
def digits (s : List Char) : List Nat × List Char :=
  ((s.takeWhile Text.isDecimalDigit).filterMap Text.digitValue?, s.dropWhile Text.isDecimalDigit)

/-- The digits before and after an optional point, at least one of them on either side together. -/
def mantissa? (s : List Char) : Option (List Nat × List Nat × List Char) :=
  match digits s with
  | ([], '.' :: rest) =>
    match digits rest with
    | ([], _) => none
    | (fraction, rest) => some ([], fraction, rest)
  | ([], _) => none
  | (whole, '.' :: rest) =>
    let (fraction, rest) := digits rest
    some (whole, fraction, rest)
  | (whole, rest) => some (whole, [], rest)

/-- The exponent that ends a numeral; nothing at all is the exponent zero. -/
def exponent? : List Char → Option Int
  | [] => some 0
  | c :: rest =>
    if c == 'e' || c == 'E' then
      let (negative, rest) := sign rest
      match digits rest with
      | ([], _) => none
      | (ds, []) =>
        let e : Int := Text.ofDigitValues 10 ds
        some (if negative then -e else e)
      | (_, _ :: _) => none
    else none

/-- Read a numeral that makes up the whole of a text. -/
def read? (s : List Char) : Option Numeral :=
  let (negative, body) := sign s
  match digits body with
  | (d :: ds, []) => some (.integer negative (d :: ds))
  | _ => do
    let (whole, fraction, rest) ← mantissa? body
    let e ← exponent? rest
    some (.decimal negative whole fraction e)

/-- The double that a numeral means; an integer is rounded to one. -/
def double : Numeral → Double
  | .integer negative ds => Double.ofDecimal negative (Text.ofDigitValues 10 ds) 0
  | .decimal negative whole fraction e =>
    Double.ofDecimal negative (Text.ofDigitValues 10 (whole ++ fraction)) (e - fraction.length)

/-- The number that a numeral means. -/
def value : Numeral → Except Limit Number
  | .integer negative ds => .int <$> Decimal.read negative ds
  | numeral => .ok (.float numeral.double)

end Numeral

/-- The number that a text means when it looks like one; blanks around it do not count. -/
def Number.ofText? (text : String) : Except Limit (Option Number) :=
  match Numeral.read? (Text.trim text.toList) with
  | none => .ok none
  | some numeral => some <$> numeral.value

end Stencil
