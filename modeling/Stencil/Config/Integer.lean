import Stencil.Config.Setting
import Stencil.Text.Utf8

/-! # Settings that are integers

Which settings count as integers. A text may have blanks around it, a sign, zeros and underscores in
front, a fraction of zeros, and single underscores between digits. A minus may stand behind the zeros,
too. -/

namespace Stencil

/-- What is wrong with a setting. -/
inductive Problem where
  /-- A number below its bound. -/
  | tooSmall (bound : Int)
  /-- Nothing that could be an integer. -/
  | notInteger
  /-- A text that is no integer. -/
  | integerText
  /-- An integer beyond the greatest size. -/
  | integerSize
  /-- A number with a fractional part. -/
  | fraction
  /-- An infinity or a NaN. -/
  | notFinite
  /-- Nothing that could be a text. -/
  | notText
  /-- Bytes that are no text. -/
  | notUnicode
  /-- A setting that there is not. -/
  | extra
  /-- A name that is no text. -/
  | badName
  /-- No mapping. -/
  | notMapping
  deriving DecidableEq, Repr

namespace Problem

/-- The identifier of a problem. -/
def code : Problem → String
  | .tooSmall _ => "greater_than_equal"
  | .notInteger => "int_type"
  | .integerText => "int_parsing"
  | .integerSize => "int_parsing_size"
  | .fraction => "int_from_float"
  | .notFinite => "finite_number"
  | .notText => "string_type"
  | .notUnicode => "string_unicode"
  | .extra => "extra_forbidden"
  | .badName => "invalid_key"
  | .notMapping => "model_type"

/-- The wording of a problem. -/
def message : Problem → String
  | .tooSmall bound => "Input should be greater than or equal to " ++ Decimal.text bound
  | .notInteger => "Input should be a valid integer"
  | .integerText => "Input should be a valid integer, unable to parse string as an integer"
  | .integerSize => "Unable to parse input string as an integer, exceeded maximum size"
  | .fraction => "Input should be a valid integer, got a number with a fractional part"
  | .notFinite => "Input should be a finite number"
  | .notText => "Input should be a valid string"
  | .notUnicode =>
    "Input should be a valid string, unable to parse raw data as a unicode string"
  | .extra => "Extra inputs are not permitted"
  | .badName => "Keys should be strings"
  | .notMapping => "Input should be a valid dictionary or instance of EngineConfig"

end Problem

namespace Setting

/-- Whether a character is a space that may surround an integer: the white space of Unicode, to which
the information separators do not belong. -/
def isSpace (c : Char) : Bool :=
  let n := c.toNat
  (0x09 ≤ n && n ≤ 0x0D) || n == 0x20 || n == 0x85 || n == 0xA0 || n == 0x1680 ||
    (0x2000 ≤ n && n ≤ 0x200A) || n == 0x2028 || n == 0x2029 || n == 0x202F || n == 0x205F ||
    n == 0x3000

/-- Whether a character can stand behind the zeros in front of a number: a digit, or a minus. -/
def followsZeros (c : Char) : Bool := c.isDigit || c == '-'

/-- Drop the zeros and underscores that follow a zero, but not the last character before the end or the
point. -/
def dropZeros (last : Char) : List Char → Option (List Char)
  | [] => some [last]
  | '.' :: rest => some (last :: '.' :: rest)
  | c :: rest =>
    if c == '0' || c == '_' then dropZeros c rest
    else if followsZeros c then some (c :: rest)
    else none

/-- Drop the zeros in front of a number, with the underscores behind the first of them. -/
def dropLeadingZeros : List Char → Option (List Char)
  | [] => none
  | '0' :: rest => dropZeros '0' rest
  | c :: rest => if followsZeros c then some (c :: rest) else none

/-- Drop a fraction of zeros, of which there has to be one at least. -/
def dropFraction (s : List Char) : List Char :=
  match s.dropWhile (· != '.') with
  | _ :: zero :: zeros =>
    if (zero :: zeros).all (· == '0') then s.takeWhile (· != '.') else s
  | _ => s

/-- Whether two underscores stand side by side. -/
def hasDoubleUnderscore : List Char → Bool
  | '_' :: '_' :: _ => true
  | _ :: rest => hasDoubleUnderscore rest
  | [] => false

/-- Drop the underscores, if none of them stands at an end or beside another. -/
def dropUnderscores (s : List Char) : List Char :=
  if s.head? == some '_' || s.getLast? == some '_' || hasDoubleUnderscore s then s
  else s.filter (· != '_')

/-- Read the plain form of an integer: an optional minus, then digits without a zero in front. The
minus counts for the size, and the size is looked at before what follows the digits. -/
def plainInteger (s : List Char) : Except Problem Int :=
  let negative := s.head? == some '-'
  let body := if negative then s.drop 1 else s
  let ds := body.takeWhile Char.isDigit
  let size := ds.length + if negative then 1 else 0
  if ds.isEmpty || (ds.head? == some '0' && ds.length != 1) then .error .integerText
  else if Limit.digits < size then .error .integerSize
  else if ds.length != body.length then .error .integerText
  else
    let n : Int := Text.ofDigitValues 10 (ds.filterMap Text.asciiDigit?)
    .ok (if negative then -n else n)

/-- Split off a sign, of which only a minus is kept. After a plus there may be no minus. -/
def splitSign : List Char → Option (List Char × List Char)
  | '+' :: '-' :: _ => none
  | '+' :: rest => some ([], rest)
  | '-' :: rest => some (['-'], rest)
  | s => some ([], s)

/-- **Read an integer** from a text. The sign is split off first, so that zeros and underscores are
looked at without it. -/
def integerOfText (s : List Char) : Except Problem Int :=
  let t := ((s.dropWhile isSpace).reverse.dropWhile isSpace).reverse
  let cleaned := do
    let (minus, t) ← splitSign t
    return minus ++ dropUnderscores (dropFraction (← dropLeadingZeros t))
  match cleaned with
  | some t => plainInteger t
  | none => .error .integerText

/-- The integer that a double is, if it is one within a machine word. -/
def integerOfDouble : Double → Except Problem Int
  | .finite negative m q =>
    let r := Double.scaled (if negative then -m else m) q
    if r.den ≠ 1 then .error .fraction
    else if -Int.pow 2 63 < r.num ∧ r.num < Int.pow 2 63 then .ok r.num
    else .error .integerSize
  | _ => .error .notFinite

/-- **A setting as an integer.** -/
def integer : Setting → Except Problem Int
  | .bool b => .ok (if b then 1 else 0)
  | .int n => .ok n
  | .float x => integerOfDouble x
  | .text s => integerOfText s.toList
  | .bytes bs =>
    match Text.Utf8.decode bs with
    | .ok s => integerOfText s
    | .error _ => .error .integerText
  | .brokenText => .error .notUnicode
  | _ => .error .notInteger

/-- A setting as an integer that is not below a bound. -/
def integerFrom (bound : Int) (s : Setting) : Except Problem Int := do
  let n ← s.integer
  if bound ≤ n then return n else throw (.tooSmall bound)

/-- A setting as an integer that is not below a bound, or as nothing. -/
def optionalFrom (bound : Int) : Setting → Except Problem (Option Int)
  | .null => .ok none
  | s => some <$> s.integerFrom bound

/-- **A setting as a text.** -/
def textual : Setting → Except Problem String
  | .text s => .ok s
  | .bytes bs =>
    match Text.Utf8.decode bs with
    | .ok s => .ok (String.ofList s)
    | .error _ => .error .notUnicode
  | .brokenText => .error .notUnicode
  | _ => .error .notText

end Setting

end Stencil
