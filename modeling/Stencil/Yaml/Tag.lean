import Stencil.Yaml.Moment

/-! # Tags

What a node is. A node without a tag is what its form says: a collection is a sequence or a mapping, a
quoted scalar is a text, and a plain scalar is what its characters look like. -/

namespace Stencil.Yaml

/-- The **tag** of a node. -/
inductive Tag where
  /-- Nothing. -/
  | null
  /-- A truth value. -/
  | bool
  /-- An integer. -/
  | int
  /-- A double. -/
  | float
  /-- Bytes, in base 64. -/
  | binary
  /-- A date or a point in time. -/
  | timestamp
  /-- A text. -/
  | text
  /-- A sequence. -/
  | sequence
  /-- A sequence of mappings of one entry each, which is an ordered mapping. -/
  | orderedMap
  /-- A sequence of mappings of one entry each. -/
  | pairs
  /-- A mapping. -/
  | mapping
  /-- A mapping whose keys are the members of a set. -/
  | set
  /-- The key under which other mappings are merged into a mapping. -/
  | merge
  /-- The key of the value that a mapping stands for when a scalar is wanted. -/
  | standing
  /-- Any other tag. -/
  | other
  deriving DecidableEq, Repr

namespace Tag

/-- What the tags of the format begin with. -/
def standardStart : List Char := "tag:yaml.org,2002:".toList

/-- The tags of the format. -/
def standard : List (String × Tag) :=
  [("null", .null), ("bool", .bool), ("int", .int), ("float", .float), ("binary", .binary),
    ("timestamp", .timestamp), ("str", .text), ("seq", .sequence), ("omap", .orderedMap),
    ("pairs", .pairs), ("map", .mapping), ("set", .set), ("merge", .merge), ("value", .standing)]

/-- A tag by its full text. -/
def ofText (s : List Char) : Tag :=
  if standardStart.isPrefixOf s then
    (standard.lookup (String.ofList (s.drop standardStart.length))).getD .other
  else .other

/-! ## What a plain scalar looks like -/

/-- The words for truth values. -/
def truthWords : List (String × Bool) :=
  [("yes", true), ("no", false), ("true", true), ("false", false), ("on", true), ("off", false)]

/-- A word in lower case, with a capital, and in capitals. -/
def spellings (word : String) : List String :=
  [word, String.ofList (match word.toList with | c :: cs => c.toUpper :: cs | [] => []), word.toUpper]

/-- Whether a text is a word for a truth value. -/
def isTruth (s : List Char) : Bool :=
  (truthWords.flatMap fun w => spellings w.1).contains (String.ofList s)

/-- Whether a text means nothing. -/
def isNull (s : List Char) : Bool :=
  s.isEmpty || s == ['~'] || (spellings "null").contains (String.ofList s)

/-- A text without its sign. -/
def unsigned : List Char → List Char
  | '+' :: rest => rest
  | '-' :: rest => rest
  | s => s

/-- Whether a character is a digit or an underscore. -/
def isSpacedDigit (c : Char) : Bool := c.isDigit || c == '_'

/-- Whether a text is a number below sixty. -/
def isSixtieth : List Char → Bool
  | [a] => a.isDigit
  | [a, b] => '0' ≤ a && a ≤ '5' && b.isDigit
  | _ => false

/-- The parts of a text between colons. -/
def colonParts : List Char → List (List Char)
  | [] => [[]]
  | c :: rest =>
    if c == ':' then [] :: colonParts rest
    else
      match colonParts rest with
      | part :: parts => (c :: part) :: parts
      | [] => [[c]]

/-- Whether a text is a number in base sixty: parts between colons, of which only the first is large.
-/
def isSexagesimal (s : List Char) (first : Char → Bool) : Bool :=
  match colonParts s with
  | (c :: digits) :: part :: parts =>
    first c && digits.all isSpacedDigit && (part :: parts).all isSixtieth
  | _ => false

/-- Whether a text looks like an integer: binary, octal, hexadecimal, decimal or sexagesimal. -/
def isInt (s : List Char) : Bool :=
  match unsigned s with
  | '0' :: 'b' :: ds => !ds.isEmpty && ds.all fun c => c == '0' || c == '1' || c == '_'
  | '0' :: 'x' :: ds => !ds.isEmpty && ds.all fun c => isHexDigit c || c == '_'
  | '0' :: ds => ds.all fun c => ('0' ≤ c && c ≤ '7') || c == '_'
  | c :: ds => c.isDigit && (ds.all isSpacedDigit || isSexagesimal (c :: ds) (· != '0'))
  | [] => false

/-- Whether a text is the exponent of a double, or nothing at all. -/
def isExponent : List Char → Bool
  | [] => true
  | e :: sign :: d :: ds =>
    (e == 'e' || e == 'E') && (sign == '+' || sign == '-') && (d :: ds).all Char.isDigit
  | _ => false

/-- Whether a text ends as a double does behind its point. -/
def isFraction (s : List Char) : Bool := isExponent (s.dropWhile isSpacedDigit)

/-- Whether a text is a number of digits before a point and those behind it. -/
def isPointed (s : List Char) : Bool :=
  match s, s.dropWhile isSpacedDigit with
  | c :: _, '.' :: rest => c.isDigit && isFraction rest
  | _, _ => false

/-- Whether a text is a number in base sixty with a point. -/
def isPointedSexagesimal (s : List Char) : Bool :=
  match s.dropWhile (· != '.') with
  | '.' :: rest => isSexagesimal (s.takeWhile (· != '.')) Char.isDigit && rest.all isSpacedDigit
  | _ => false

/-- Whether a text looks like a double. A number that begins with its point has no sign. -/
def isFloat (s : List Char) : Bool :=
  let u := unsigned s
  isPointed u || isPointedSexagesimal u ||
    [".inf", ".Inf", ".INF"].contains (String.ofList u) ||
    [".nan", ".NaN", ".NAN"].contains (String.ofList s) ||
    (match s with
      | '.' :: c :: rest => c.isDigit && isFraction rest
      | _ => false)

/-- A text without a line feed at its end, which does not count for what it looks like. -/
def withoutLineEnd (s : List Char) : List Char :=
  if s.getLast? == some '\n' then s.dropLast else s

/-- The tag of a scalar by its characters. -/
def ofPlain (text : List Char) : Tag :=
  let s := withoutLineEnd text
  if s.isEmpty && !text.isEmpty then .text
  else if isTruth s then .bool
  else if isFloat s then .float
  else if isInt s then .int
  else if s == ['<', '<'] then .merge
  else if isNull s then .null
  else if Moment.isImplicit s then .timestamp
  else if s == ['='] then .standing
  else if s == ['!'] || s == ['&'] || s == ['*'] then .other
  else .text

end Tag

end Stencil.Yaml
