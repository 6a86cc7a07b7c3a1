import Stencil.Number.Decimal
import Stencil.Text.Utf8
import Stencil.Yaml.Cursor
import Stencil.Yaml.Fault

/-! # Properties and directives

The names of anchors, the tags of nodes, and the directives before a document. -/

namespace Stencil.Yaml

/-! ## Anchors -/

/-- Whether a character may follow the name of an anchor. -/
def endsAnchor (c : Char) : Bool :=
  isGap c || ['?', ':', ',', ']', '\x7d', '%', '@', '\x60'].contains c

/-- The name of an anchor, and what follows it. -/
def anchorName? (s : List Char) : Option (List Char × List Char) :=
  let after := s.dropWhile isNameChar
  match s.takeWhile isNameChar with
  | [] => none
  | name => if endsOr endsAnchor after then some (name, after) else none

/-! ## Tags -/

/-- A **tag** as it is written. -/
structure TagText where
  /-- The handle that stands for its beginning, if it has one. -/
  handle : Option (List Char)
  /-- The rest of it. -/
  suffix : List Char
  deriving DecidableEq, Repr

/-- Whether a character may stand in a tag. -/
def isUriChar (c : Char) : Bool :=
  c.isAlphanum ||
    ['-', ';', '/', '?', ':', '@', '&', '=', '+', '$', ',', '_', '.', '!', '~', '*', '\x27', '(', ')',
      '[', ']'].contains c

/-- The bytes that are escaped here, and the number of their characters. -/
def escapedBytes? : List Char → Option (List UInt8 × Nat)
  | '%' :: a :: b :: rest =>
    if isHexDigit a && isHexDigit b then
      (escapedBytes? rest).map fun (bytes, n) => (UInt8.ofNat (ofHex [a, b]) :: bytes, n + 3)
    else none
  | '%' :: _ => none
  | _ => some ([], 0)

/-- The characters of a tag, and what follows them. Escaped bytes are UTF-8. -/
def uriChars? : List Char → Option (List Char × List Char)
  | [] => some ([], [])
  | c :: rest =>
    if c == '%' then
      match escapedBytes? (c :: rest) with
      | none => none
      | some (bytes, n) =>
        match Text.Utf8.decode bytes with
        | .ok text =>
          (uriChars? (rest.drop (n - 1))).map fun (more, after) => (text ++ more, after)
        | .error _ => none
    else if isUriChar c then (uriChars? rest).map fun (more, after) => (c :: more, after)
    else some ([], c :: rest)
termination_by s => s.length
decreasing_by
  · simp only [List.length_drop, List.length_cons]
    omega
  · simp

/-- The characters of a tag, at least one. -/
def uri? (s : List Char) : Option (List Char × List Char) :=
  (uriChars? s).filter fun (text, _) => !text.isEmpty

/-- A handle, and what follows it: an exclamation mark, or two with a name between them. -/
def handle? : List Char → Option (List Char × List Char)
  | '!' :: rest =>
    if rest.head? == some ' ' then some (['!'], rest)
    else
      match rest.dropWhile isNameChar with
      | '!' :: after => some ('!' :: (rest.takeWhile isNameChar ++ ['!']), after)
      | _ => none
  | _ => none

/-- Whether there is an exclamation mark before the next space or line break. -/
def markBeforeSpace (s : List Char) : Bool :=
  (s.takeWhile fun c => !(c == ' ' || isBreak c)).contains '!'

/-- Read a tag from behind its first mark. -/
def tagBody? (s : List Char) : Option (TagText × List Char) :=
  match s with
  | '<' :: rest => do
    let (suffix, after) ← uri? rest
    match after with
    | '>' :: after => return (⟨none, suffix⟩, after)
    | _ => none
  | s =>
    if gapAhead s then some (⟨none, ['!']⟩, s)
    else do
      let (handle, rest) ← if markBeforeSpace s then handle? ('!' :: s) else some (['!'], s)
      let (suffix, after) ← uri? rest
      return (⟨some handle, suffix⟩, after)

/-- **Read a tag** from behind its first mark. -/
def tag? (s : List Char) : Option (TagText × List Char) :=
  (tagBody? s).filter fun (_, after) => spaceAhead after

/-! ## Directives -/

/-- A **directive**. -/
inductive Directive where
  /-- The version of the format, by its greater part. -/
  | version (major : Int)
  /-- A handle and the beginning of tags that it stands for. -/
  | handle (name start : List Char)
  /-- Any other, which says nothing. -/
  | reserved
  deriving DecidableEq, Repr

/-- The part of a version number that is next. -/
def versionPart (s : List Char) : Except Fault (Int × List Char) :=
  let digits := s.takeWhile Char.isDigit
  if digits.isEmpty then .error .malformed
  else
    match Decimal.read false (digits.filterMap Text.asciiDigit?) with
    | .ok n => .ok (n, s.dropWhile Char.isDigit)
    | .error limit => .error (.construction (.value limit.message))

/-- The version of a directive, and what follows it. -/
def version (s : List Char) : Except Fault (Directive × List Char) := do
  let (major, rest) ← versionPart (s.dropWhile (· == ' '))
  match rest with
  | '.' :: rest =>
    let (_, after) ← versionPart rest
    if spaceAhead after then return (.version major, after) else throw .malformed
  | _ => throw .malformed

/-- The handle of a directive and what it stands for, and what follows them. -/
def handleDirective? (s : List Char) : Option (Directive × List Char) := do
  let (name, rest) ← handle? (s.dropWhile (· == ' '))
  if rest.head? == some ' ' then
    let (start, after) ← uri? (rest.dropWhile (· == ' '))
    if spaceAhead after then return (.handle name start, after) else none
  else none

/-- A directive from behind its mark up to what may only be a comment. -/
def directiveBody (s : List Char) : Except Fault (Directive × List Char) :=
  let after := s.dropWhile isNameChar
  let name := String.ofList (s.takeWhile isNameChar)
  if name.isEmpty || !spaceAhead after then .error .malformed
  else if name == "YAML" then version after
  else if name == "TAG" then
    match handleDirective? after with
    | some d => .ok d
    | none => .error .malformed
  else .ok (.reserved, after.dropWhile (!isBreak ·))

/-- **Read a directive** from behind its mark, to the end of its line. -/
def directive (s : List Char) : Except Fault (Directive × List Char) := do
  let (d, after) ← directiveBody s
  match lineRest? after with
  | some n => return (d, after.drop n)
  | none => throw .malformed

end Stencil.Yaml
