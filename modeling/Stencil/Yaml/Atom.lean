import Stencil.Number.Numeral
import Stencil.Text.Quoted
import Stencil.Yaml.Base64
import Stencil.Yaml.Tag

/-! # Scalars as values

What the text of a scalar means under its tag. Underscores in numbers do not count. -/

namespace Stencil.Yaml.Atom

/-- A text in lower case. Only the words of the format have to be recognised, which are ASCII. -/
def lower (s : List Char) : List Char := s.map Char.toLower

/-- Split off a sign that a number begins with; there has to be something to begin. -/
def sign (s : List Char) : Except ConstructionError (Bool × List Char) :=
  match s with
  | [] => .error .emptyText
  | s => .ok (Numeral.sign s)

/-- A text without underscores. -/
def withoutUnderscores (s : List Char) : List Char := s.filter (· != '_')

/-! ## Integers -/

/-- The value of a character as a digit of some base. -/
def digitValue? (c : Char) : Option Nat :=
  match Text.digitValue? c with
  | some n => some n
  | none =>
    if 'a' ≤ c && c ≤ 'z' then some (c.toNat - 87)
    else if 'A' ≤ c && c ≤ 'Z' then some (c.toNat - 55)
    else none

/-- The letters that mark a base, after a zero. -/
def baseMark (base : Nat) : List Char :=
  if base = 2 then ['b', 'B'] else if base = 8 then ['o', 'O'] else if base = 16 then ['x', 'X'] else []

/-- A text without the mark of its base. -/
def withoutMark (base : Nat) : List Char → List Char
  | '0' :: c :: rest => if (baseMark base).contains c then rest else '0' :: c :: rest
  | s => s

/-- A text that is no integer in a base. -/
def noInteger (base : Nat) (s : List Char) : ConstructionError :=
  .value ("invalid literal for int() with base " ++ Decimal.text base ++ ": " ++
    String.ofList ((Text.quoted (String.ofList s)).toList.take 200))

/-- An integer in a base, with blanks around it, a sign and a mark of its base. Only in a base that is
no power of two the number of digits is limited. -/
def integerIn (base : Nat) (s : List Char) : Except ConstructionError Int :=
  let (negative, body) := Numeral.sign (Text.trim s)
  let ds := withoutMark base body
  let values := ds.filterMap digitValue?
  if ds.isEmpty || values.length != ds.length || values.any (base ≤ ·) then .error (noInteger base s)
  else if base = 10 then (Decimal.read negative values).mapError fun l => .value l.message
  else
    let n : Int := Text.ofDigitValues base values
    .ok (if negative then -n else n)

/-- **An integer**: binary, hexadecimal, octal after a zero, in base sixty with colons, or decimal. -/
def int (text : List Char) : Except ConstructionError Int := do
  let (negative, s) ← sign (withoutUnderscores text)
  let n ← match s with
    | ['0'] => .ok 0
    | '0' :: 'b' :: ds => integerIn 2 ds
    | '0' :: 'x' :: ds => integerIn 16 ds
    | '0' :: _ => integerIn 8 s
    | [] => .error .emptyText
    | _ =>
      if s.contains ':' then
        (Tag.colonParts s).foldlM (fun n part => return n * 60 + (← integerIn 10 part)) 0
      else integerIn 10 s
  return if negative then -n else n

/-! ## Doubles -/

/-- A double with the other sign. -/
def negated : Double → Double
  | .finite negative m q => .finite (!negative) m q
  | .infinite negative => .infinite (!negative)
  | .nan tag => .nan tag

/-- The one NaN that documents hold. -/
def nan : Double := .nan 0

/-- A double in words or digits, with blanks around it and a sign. -/
def doubleOf (s : List Char) : Except ConstructionError Double :=
  let t := Text.trim s
  let (negative, body) := Numeral.sign t
  if ["inf", "infinity"].contains (String.ofList body) then .ok (.infinite negative)
  else if String.ofList body == "nan" then .ok nan
  else
    match Numeral.read? t with
    | some numeral => .ok numeral.double
    | none => .error (.value ("could not convert string to float: " ++ Text.quoted (String.ofList s)))

/-- The double nearest to a rational number. -/
def nearest (r : Rat) : Double := Double.ofRatio (r.num < 0) r.num.natAbs r.den

/-- The number that a finite double stands for. -/
def rational? : Double → Option Rat
  | .finite negative m q => some (Double.scaled (if negative then -m else m) q)
  | _ => none

/-- The double nearest to the sum of two. -/
def sum (a b : Double) : Double :=
  match rational? a, rational? b with
  | some r, some s => nearest (r + s)
  | none, some _ => a
  | some _, none => b
  | none, none => if a = b then a else nan

/-- The double nearest to the product of one and a positive weight, which has to fit a double itself. -/
def product (a : Double) (weight : Nat) : Except ConstructionError Double :=
  match rational? a, rational? (nearest weight) with
  | some r, some s => .ok (nearest (r * s))
  | none, some _ => .ok a
  | _, none => .error (@ConstructionError.codeSize .double)

/-- The sum of digits in base sixty, the last one first. -/
def sexagesimal : (weight : Nat) → (total : Double) → List Double → Except ConstructionError Double
  | _, total, [] => .ok total
  | weight, total, d :: ds => do sexagesimal (weight * 60) (sum total (← product d weight)) ds

/-- A double without a sign: an infinity after a point, in base sixty with colons, or decimal. -/
def magnitude (s : List Char) : Except ConstructionError Double :=
  if String.ofList s == ".inf" then .ok (.infinite false)
  else if s.contains ':' then do
    let parts ← (Tag.colonParts s).mapM doubleOf
    sexagesimal 1 (Double.zero false) parts.reverse
  else doubleOf s

/-- **A double**: a NaN after a point, or a magnitude with an optional sign. -/
def float (text : List Char) : Except ConstructionError Double := do
  let (negative, s) ← sign (lower (withoutUnderscores text))
  if String.ofList s == ".nan" then return nan
  let x ← magnitude s
  return if negative then negated x else x

/-! ## Truth values and bytes -/

/-- **A truth value** by its word. -/
def bool (text : List Char) : Except ConstructionError Bool :=
  let word := String.ofList (lower text)
  match Tag.truthWords.lookup word with
  | some b => .ok b
  | none => .error (.unknownWord word)

/-- **Bytes** in base 64, of ASCII characters only. -/
def bytes? (text : List Char) : Option (List UInt8) :=
  if text.all (·.toNat < 0x80) then Base64.read? text else none

end Stencil.Yaml.Atom
