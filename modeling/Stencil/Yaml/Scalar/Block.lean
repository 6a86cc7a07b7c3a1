import Stencil.Yaml.Cursor

/-! # Block scalars

A block scalar is the indented lines below its header: literal lines keep their line breaks, folded
ones are joined by spaces. The header tells what becomes of the line breaks at the end, and may give
the indentation. -/

namespace Stencil.Yaml.Block

/-- What becomes of the **line breaks at the end**. -/
inductive Chomp where
  /-- None is kept. -/
  | strip
  /-- The first is kept. -/
  | clip
  /-- All are kept. -/
  | keep
  deriving DecidableEq, Repr

/-- The **header** of a block scalar. -/
structure Header where
  /-- What becomes of the line breaks at the end. -/
  chomp : Chomp
  /-- The indentation, if it is given. -/
  width : Option Nat
  deriving DecidableEq, Repr

/-- The mark for the line breaks at the end. -/
def chomp? : List Char → Option Chomp
  | '+' :: _ => some .keep
  | '-' :: _ => some .strip
  | _ => none

/-- The digit for the indentation. -/
def width? : List Char → Option Nat
  | c :: _ => if c.isDigit then some (c.toNat - 48) else none
  | [] => none

/-- The marks of a header, in either order, and their number. -/
def marks (s : List Char) : Header × Nat :=
  match chomp? s, width? s with
  | some chomp, _ =>
    match width? (s.drop 1) with
    | some w => (⟨chomp, some w⟩, 2)
    | none => (⟨chomp, none⟩, 1)
  | none, some w =>
    match chomp? (s.drop 1) with
    | some chomp => (⟨chomp, some w⟩, 2)
    | none => (⟨.clip, some w⟩, 1)
  | none, none => (⟨.clip, none⟩, 0)

/-- Read a header, which takes the rest of its line. -/
def header? (c : Cursor) : Option (Header × Cursor) :=
  let (header, n) := marks c.rest
  let c := c.skip n
  if header.width = some 0 || !spaceAhead c.rest then none
  else (lineRest? c.rest).map fun n => (header, c.skip n)

/-- The lines of spaces that are next: their line breaks, the greatest column that is reached, and the
number of characters. -/
def leadingLines (column : Nat) : List Char → List Char × Nat × Nat
  | [] => ([], 0, 0)
  | c :: rest =>
    if c == ' ' then
      let (breaks, widest, n) := leadingLines (column + 1) rest
      (breaks, max (column + 1) widest, n + 1)
    else if isBreak c then
      let (breaks, widest, n) := leadingLines 0 rest
      (lineBreak c :: breaks, widest, n + 1)
    else ([], 0, 0)

/-- The blank lines that are next, and the indentation of the line after them: their line breaks, and
the number of characters. -/
def blankLines (indent column : Nat) : List Char → List Char × Nat
  | [] => ([], 0)
  | c :: rest =>
    if c == ' ' && column < indent then
      let (breaks, n) := blankLines indent (column + 1) rest
      (breaks, n + 1)
    else if isBreak c then
      let (breaks, n) := blankLines indent 0 rest
      (lineBreak c :: breaks, n + 1)
    else ([], 0)

/-- What joins a line to the next one. Folded lines are joined by a space, or by nothing if blank
lines stand between them, as long as neither of them begins with a blank. -/
def join (folded : Bool) (line lineEnd breaks next : List Char) : List Char :=
  let textual (s : List Char) := !s.head?.any isSpaceOrTab
  if folded && lineEnd == ['\n'] && textual line && textual next then
    if breaks.isEmpty then [' '] else breaks
  else lineEnd ++ breaks

/-- The line breaks at the end. -/
def Chomp.apply (chomp : Chomp) (lineEnd breaks : List Char) : List Char :=
  match chomp with
  | .strip => []
  | .clip => lineEnd
  | .keep => lineEnd ++ breaks

/-- Read the lines from the first character of one on. -/
def lines (folded : Bool) (chomp : Chomp) (indent : Nat) (c : Cursor) : List Char × Cursor :=
  match _h : c.rest with
  | [] => ([], c)
  | ch :: rest =>
    let line := ch :: rest.takeWhile (!isBreak ·)
    let lineEnd := ((rest.dropWhile (!isBreak ·)).take 1).map lineBreak
    let behind := c.skip (line.length + lineEnd.length)
    let (breaks, n) := blankLines indent behind.column behind.rest
    let next := behind.skip n
    if next.column = indent ∧ next.rest ≠ [] then
      let (text, after) := lines folded chomp indent next
      (line ++ join folded line lineEnd breaks next.rest ++ text, after)
    else (line ++ chomp.apply lineEnd breaks, next)
termination_by c.rest.length
decreasing_by
  simp only [Cursor.rest_skip, List.length_drop, List.length_cons, _h]
  omega

/-- **Read a block scalar** from behind its mark, below a level of this indentation. -/
def read? (folded : Bool) (outer : Int) (c : Cursor) : Option (List Char × Cursor) := do
  let (header, c) ← header? c
  let least := (max (outer + 1) 1).toNat
  let (breaks, indent, n) :=
    match header.width with
    | none =>
      let (breaks, widest, n) := leadingLines c.column c.rest
      (breaks, max least widest, n)
    | some w =>
      let indent := least + w - 1
      let (breaks, n) := blankLines indent c.column c.rest
      (breaks, indent, n)
  let c := c.skip n
  if c.column = indent ∧ c.rest ≠ [] then
    let (text, after) := lines folded header.chomp indent c
    return (breaks ++ text, after)
  else return (header.chomp.apply [] breaks, c)

end Stencil.Yaml.Block
