import Stencil.Yaml.Cursor

/-! # Plain scalars

A plain scalar stands without quotes. It ends at a comment, at a colon before a gap, in a flow
collection also at a mark of the collection, and where a line is indented too little. -/

namespace Stencil.Yaml.Plain

/-- Whether a colon before these characters ends a plain scalar. -/
def colonEnds (flow : Bool) (rest : List Char) : Bool :=
  endsOr (fun c => isGap c || (flow && [',', '[', ']', '\x7b', '\x7d'].contains c)) rest

/-- Whether a character ends a plain scalar in a flow collection. -/
def flowEnds (c : Char) : Bool := [',', '?', '[', ']', '\x7b', '\x7d'].contains c

/-- The length of the run of characters of a plain scalar that is next. -/
def runLength (flow : Bool) : List Char → Nat
  | [] => 0
  | c :: rest =>
    if isGap c || (c == ':' && colonEnds flow rest) || (flow && flowEnds c) then 0
    else runLength flow rest + 1

/-- There are no more characters in a run than there are. -/
theorem runLength_le (flow : Bool) (s : List Char) : runLength flow s ≤ s.length := by
  induction s with
  | nil => simp [runLength]
  | cons c rest ih =>
    rw [runLength]
    split
    · simp
    · simpa using ih

/-- The line breaks of blank lines, unless a document marker ends them, and the number of characters
that they take. -/
def blankLines : List Char → Option (List Char) × Nat
  | [] => (some [], 0)
  | c :: rest =>
    if c == ' ' then
      let (breaks, n) := blankLines rest
      (breaks, n + 1)
    else if isBreak c then
      if markerAhead rest then (none, 1)
      else
        let (breaks, n) := blankLines rest
        (breaks.map (lineBreak c :: ·), n + 1)
    else (some [], 0)

/-- What stands **between two runs** of a plain scalar. -/
structure Gap where
  /-- The characters that it stands for; none where the scalar ends. -/
  text : List Char
  /-- The number of characters that it takes. -/
  count : Nat
  /-- Whether it breaks the line. -/
  breaks : Bool

/-- The gap that is next. A line break becomes a space unless blank lines follow it or it is a
separator. -/
def gap (s : List Char) : Gap :=
  let spaces := countWhile (· == ' ') s
  match s.drop spaces with
  | [] => ⟨s.take spaces, spaces, false⟩
  | c :: rest =>
    if isBreak c then
      if markerAhead rest then ⟨[], spaces + 1, true⟩
      else
        match blankLines rest with
        | (none, n) => ⟨[], spaces + 1 + n, true⟩
        | (some breaks, n) =>
          let folded :=
            if lineBreak c != '\n' then lineBreak c :: breaks
            else if breaks.isEmpty then [' ']
            else breaks
          ⟨folded, spaces + 1 + n, true⟩
    else ⟨s.take spaces, spaces, false⟩

/-- A plain scalar **as far as it is read**. -/
structure Extent where
  /-- Its characters. -/
  text : List Char
  /-- The place behind it. -/
  cursor : Cursor
  /-- Whether the line breaks after it. -/
  breaks : Bool

/-- Read the runs of a plain scalar, of which the next follows a gap. Outside of flow collections a
line continues the scalar only if its column is at least `indent`. -/
def readFrom (flow : Bool) (indent : Int) (before : List Char) (breaks : Bool) (c : Cursor) :
    Extent :=
  let n := if c.rest.head? == some '#' then 0 else runLength flow c.rest
  if _h : n = 0 then ⟨[], c, breaks⟩
  else
    let run := before ++ c.rest.take n
    let g := gap (c.rest.drop n)
    let after := (c.skip n).skip g.count
    if g.text.isEmpty || after.rest.head? == some '#' || (!flow && after.column < indent) then
      ⟨run, after, g.breaks⟩
    else
      let e := readFrom flow indent g.text g.breaks after
      { e with text := run ++ e.text }
termination_by c.rest.length
decreasing_by
  have hle := runLength_le flow c.rest
  have hn : n ≤ c.rest.length := by
    simp only [n]
    split <;> omega
  simp only [Cursor.rest_skip, List.length_drop]
  omega

/-- **Read a plain scalar.** -/
def read (flow : Bool) (indent : Int) (c : Cursor) : Extent := readFrom flow indent [] false c

end Stencil.Yaml.Plain
