import Stencil.Yaml.Cursor
import Stencil.Yaml.Fault
import Stencil.Yaml.Scalar.Basic

/-! # Quoted scalars

Between single quotes a quote is written twice; between double quotes a backslash begins an escape. In
both, a line break between two lines of text is folded into a space, and blank lines are kept as line
breaks. -/

namespace Stencil.Yaml.Quoted

/-- The line breaks of blank lines, and the number of characters they take with the blanks around
them. A document marker may not stand here. -/
def blankLines? (s : List Char) : Option (List Char × Nat) :=
  if markerAhead s then none
  else
    let blanks := countWhile isSpaceOrTab s
    match _h : s.drop blanks with
    | [] => some ([], blanks)
    | c :: rest =>
      if isBreak c then
        (blankLines? rest).map fun (breaks, n) => (lineBreak c :: breaks, blanks + 1 + n)
      else some ([], blanks)
termination_by s.length
decreasing_by
  have := congrArg List.length _h
  simp only [List.length_drop, List.length_cons] at this
  omega

/-- The characters that an escape of one letter stands for. -/
def letters : List (Char × Char) :=
  [('0', '\x00'), ('a', '\x07'), ('b', '\x08'), ('t', '\x09'), ('\t', '\x09'), ('n', '\x0a'),
    ('v', '\x0b'), ('f', '\x0c'), ('r', '\x0d'), ('e', '\x1b'), (' ', ' '), ('\x22', '\x22'),
    ('\\', '\\'), ('/', '/'), ('N', '\x85'), ('_', '\xa0'), ('L', '\u2028'), ('P', '\u2029')]

/-- The number of digits of an escape that names a character by its number. -/
def digitCount? : Char → Option Nat
  | 'x' => some 2
  | 'u' => some 4
  | 'U' => some 8
  | _ => none

/-- The content that a number names. Half of a surrogate pair is no text; each of the three bytes that
would write it is shown as a replacement character. -/
def ofCode (n : Nat) : Except Fault Content :=
  if n < 0xD800 || (0xE000 ≤ n && n ≤ 0x10FFFF) then .ok ⟨[Char.ofNat n], true⟩
  else if n < 0xE000 then .ok ⟨['\uFFFD', '\uFFFD', '\uFFFD'], false⟩
  else if n < Nat.pow 2 31 then .error (.construction (.value "chr() arg not in range(0x110000)"))
  else .error (.construction (@ConstructionError.codeSize .word))

/-- What stands **at the front** within quotes. -/
inductive Front where
  /-- The closing quote. -/
  | close
  /-- A piece of content, which takes this many characters after the first. -/
  | piece (content : Content) (more : Nat)

/-- An escape, by what follows its backslash. -/
def escape : List Char → Except Fault Front
  | [] => .error .malformed
  | c :: rest =>
    match letters.lookup c, digitCount? c with
    | some ch, _ => .ok (.piece ⟨[ch], true⟩ 1)
    | none, some n =>
      let digits := rest.take n
      if digits.length = n && digits.all isHexDigit then do
        let content ← ofCode (ofHex digits)
        return .piece content (n + 1)
      else .error .malformed
    | none, none =>
      if isBreak c then
        match blankLines? rest with
        | some (breaks, n) => .ok (.piece ⟨breaks, true⟩ (n + 1))
        | none => .error .malformed
      else .error .malformed

/-- The blanks and line breaks at the front: a break after a line of text becomes a space unless
blank lines follow it or it is a separator. -/
def gap (s : List Char) : Except Fault Front :=
  let blanks := countWhile isSpaceOrTab s
  match s.drop blanks with
  | [] => .error .malformed
  | c :: rest =>
    if isBreak c then
      match blankLines? rest with
      | some (breaks, n) =>
        let folded :=
          if lineBreak c != '\n' then lineBreak c :: breaks
          else if breaks.isEmpty then [' ']
          else breaks
        .ok (.piece ⟨folded, true⟩ (blanks + n))
      | none => .error .malformed
    else .ok (.piece ⟨s.take blanks, true⟩ (blanks - 1))

/-- What stands at the front, by its first character. -/
def front (double : Bool) (c : Char) (rest : List Char) : Except Fault Front :=
  if isGap c then gap (c :: rest)
  else if double then
    if c == '\x22' then .ok .close
    else if c == '\\' then escape rest
    else .ok (.piece ⟨[c], true⟩ 0)
  else if c == '\x27' then
    if rest.head? == some '\x27' then .ok (.piece ⟨['\x27'], true⟩ 1) else .ok .close
  else .ok (.piece ⟨[c], true⟩ 0)

/-- **Read a quoted scalar** from behind its opening quote: its content, and what follows it. -/
def read (double : Bool) : List Char → Except Fault (Content × List Char)
  | [] => .error .malformed
  | c :: rest => do
    match ← front double c rest with
    | .close => return ({}, rest)
    | .piece content more =>
      let (others, after) ← read double (rest.drop more)
      return (content.append others, after)
termination_by s => s.length
decreasing_by
  simp only [List.length_drop, List.length_cons]
  omega

end Stencil.Yaml.Quoted
