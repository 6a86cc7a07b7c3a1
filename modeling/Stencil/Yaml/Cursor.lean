/-! # Places in a document

The characters of a document by their role in its layout, and the place that a reader has reached:
the characters ahead, and the line and column of the next one. -/

namespace Stencil.Yaml

/-! ## Characters -/

/-- Whether a character **breaks a line**. Carriage returns are line feeds already. -/
def isBreak (c : Char) : Bool := c == '\n' || c == '\x85' || c == '\u2028' || c == '\u2029'

/-- Whether a character is a space or a tabulator. -/
def isSpaceOrTab (c : Char) : Bool := c == ' ' || c == '\t'

/-- Whether a character is a space, a tabulator or a line break. -/
def isGap (c : Char) : Bool := isSpaceOrTab c || isBreak c

/-- Whether a character may stand in a document. -/
def isAllowed (c : Char) : Bool :=
  let n := c.toNat
  n == 0x09 || n == 0x0A || n == 0x0D || (0x20 ≤ n && n ≤ 0x7E) || n == 0x85 ||
    (0xA0 ≤ n && n ≤ 0xFFFD) || 0x10000 ≤ n

/-- Whether a character may stand in the name of an anchor, a handle or a directive. -/
def isNameChar (c : Char) : Bool := c.isAlphanum || c == '-' || c == '_'

/-- Whether a character is a hexadecimal digit. -/
def isHexDigit (c : Char) : Bool :=
  c.isDigit || ('a' ≤ c && c ≤ 'f') || ('A' ≤ c && c ≤ 'F')

/-- The value of a hexadecimal digit. -/
def hexValue (c : Char) : Nat :=
  if c.isDigit then c.toNat - 48 else if 'a' ≤ c then c.toNat - 87 else c.toNat - 55

/-- The number that hexadecimal digits write. -/
def ofHex (ds : List Char) : Nat := ds.foldl (fun n c => n * 16 + hexValue c) 0

/-- The line break that a character stands for: only the separators of lines and paragraphs are not
line feeds. -/
def lineBreak (c : Char) : Char := if c == '\u2028' || c == '\u2029' then c else '\n'

/-! ## What is ahead -/

/-- Whether the text ends here, or its next character passes a test. -/
def endsOr (test : Char → Bool) (s : List Char) : Bool := s.head?.all test

/-- Whether a space, a tabulator, a line break or the end is next. -/
def gapAhead (s : List Char) : Bool := endsOr isGap s

/-- Whether a space, a line break or the end is next. -/
def spaceAhead (s : List Char) : Bool := endsOr (fun c => c == ' ' || isBreak c) s

/-- Whether a document marker is next. -/
def markerAhead : List Char → Bool
  | '-' :: '-' :: '-' :: rest => gapAhead rest
  | '.' :: '.' :: '.' :: rest => gapAhead rest
  | _ => false

/-- The number of characters from here on that pass a test. -/
def countWhile (test : Char → Bool) (s : List Char) : Nat := (s.takeWhile test).length

/-- The number of characters of a comment; without its mark there is none. -/
def commentLength (s : List Char) : Nat :=
  if s.head? == some '#' then countWhile (!isBreak ·) s else 0

/-- The number of characters up to the next line, if there is nothing but spaces and a comment. -/
def lineRest? (s : List Char) : Option Nat :=
  let spaces := countWhile (· == ' ') s
  let n := spaces + commentLength (s.drop spaces)
  match s.drop n with
  | [] => some n
  | c :: _ => if isBreak c then some (n + 1) else none

/-! ## Cursors -/

/-- A **place** in a document. -/
structure Cursor where
  /-- The characters ahead. -/
  rest : List Char
  /-- The number of characters before it. -/
  index : Nat
  /-- The number of lines before it. -/
  line : Nat
  /-- The number of characters before it on its line. -/
  column : Nat

namespace Cursor

/-- The place one character further on. A byte order mark takes no column. -/
def next (c : Cursor) : Cursor :=
  match c.rest with
  | [] => c
  | ch :: rest =>
    if isBreak ch then ⟨rest, c.index + 1, c.line + 1, 0⟩
    else ⟨rest, c.index + 1, c.line, if ch == '\uFEFF' then c.column else c.column + 1⟩

/-- The place a number of characters further on. -/
def skip (c : Cursor) : Nat → Cursor
  | 0 => c
  | n + 1 => c.next.skip n

/-- The place at which these characters are ahead. -/
def goto (c : Cursor) (rest : List Char) : Cursor := c.skip (c.rest.length - rest.length)

@[simp] theorem rest_next (c : Cursor) : c.next.rest = c.rest.drop 1 := by
  unfold next
  split
  · rename_i h; simp [h]
  · rename_i h; split <;> simp [h]

@[simp] theorem rest_skip (c : Cursor) (n : Nat) : (c.skip n).rest = c.rest.drop n := by
  induction n generalizing c with
  | zero => rfl
  | succ n ih => rw [skip, ih, rest_next, List.drop_drop, Nat.add_comm]

end Cursor

end Stencil.Yaml
