/-! # UTF-8

Reading UTF-8 strictly: the shortest form of every character, no surrogates, nothing beyond U+10FFFF.
A fault covers the longest beginning of a character that is there. -/

namespace Stencil.Text

/-- A stretch of bytes that is **no text**. -/
structure BadBytes where
  /-- The position of the first byte. -/
  start : Nat
  /-- The number of bytes. -/
  count : Nat
  /-- The first byte. -/
  byte : UInt8
  /-- What is wrong with them. -/
  reason : String
  deriving DecidableEq, Repr

/-- The report of a fault under the name of an encoding. -/
def BadBytes.message (bad : BadBytes) (codec : String) : String :=
  let place :=
    if bad.count = 1 then
      let digits := Nat.toDigits 16 bad.byte.toNat
      "byte 0x" ++ String.ofList (List.replicate (2 - digits.length) '0' ++ digits) ++
        " in position " ++ toString bad.start
    else
      "bytes in position " ++ toString bad.start ++ "-" ++ toString (bad.start + bad.count - 1)
  "'" ++ codec ++ "' codec can't decode " ++ place ++ ": " ++ bad.reason

namespace Utf8

/-- What stands at the front of a row of bytes. -/
inductive Front where
  /-- A character of this many bytes. -/
  | char (c : Char) (count : Nat)
  /-- The beginning of a character, cut off at the end. -/
  | cut
  /-- Bytes that begin no character. -/
  | bad (count : Nat) (reason : String)

/-- The number of bytes that follow a first byte, the bits that it contributes, and the bounds of the
second byte. -/
def lead? (a : Nat) : Option (Nat × Nat × Nat × Nat) :=
  if 0xC2 ≤ a && a ≤ 0xDF then some (1, a - 0xC0, 0x80, 0xBF)
  else if a = 0xE0 then some (2, 0, 0xA0, 0xBF)
  else if a = 0xED then some (2, 0xD, 0x80, 0x9F)
  else if 0xE1 ≤ a && a ≤ 0xEF then some (2, a - 0xE0, 0x80, 0xBF)
  else if a = 0xF0 then some (3, 0, 0x90, 0xBF)
  else if a = 0xF4 then some (3, 4, 0x80, 0x8F)
  else if 0xF1 ≤ a && a ≤ 0xF3 then some (3, a - 0xF0, 0x80, 0xBF)
  else none

/-- Read the bytes that follow a first one: `need` more, of which the next lies between bounds;
`seen` are read, and contribute `bits`. -/
def tail (lo hi seen bits : Nat) : (need : Nat) → List UInt8 → Front
  | 0, _ => .char (Char.ofNat bits) seen
  | _ + 1, [] => .cut
  | need + 1, b :: rest =>
    if lo ≤ b.toNat && b.toNat ≤ hi then
      tail 0x80 0xBF (seen + 1) (bits * 64 + (b.toNat - 0x80)) need rest
    else .bad seen "invalid continuation byte"

/-- What stands at the front, by the first byte and the bytes after it. -/
def front (a : UInt8) (rest : List UInt8) : Front :=
  if a.toNat < 0x80 then .char (Char.ofNat a.toNat) 1
  else
    match lead? a.toNat with
    | none => .bad 1 "invalid start byte"
    | some (need, bits, lo, hi) => tail lo hi 1 bits need rest

/-- Read characters as long as there are whole ones; what is left over is the beginning of one. -/
def decodeFrom (position : Nat) : List UInt8 → Except BadBytes (List Char × List UInt8)
  | [] => .ok ([], [])
  | a :: rest =>
    match front a rest with
    | .char c count => do
      let (cs, left) ← decodeFrom (position + count) (rest.drop (count - 1))
      return (c :: cs, left)
    | .cut => .ok ([], a :: rest)
    | .bad count reason => .error ⟨position, count, a, reason⟩
termination_by bytes => bytes.length
decreasing_by
  simp only [List.length_drop, List.length_cons]
  omega

/-- The fault of a row of bytes that ends within a character. -/
def cutOff (position : Nat) (left : List UInt8) : BadBytes :=
  ⟨position, left.length, left.headD 0, "unexpected end of data"⟩

/-- **Read a whole text.** -/
def decode (bytes : List UInt8) : Except BadBytes (List Char) := do
  let (cs, left) ← decodeFrom 0 bytes
  if left.isEmpty then return cs
  else throw (cutOff (bytes.length - left.length) left)

/-- The size of the blocks in which a file is read. -/
def blockSize : Nat := 8192

/-- Read a text **block by block**. Positions count from the beginning of what is read at one time,
which is the character left over from the block before and the block itself. -/
def decodeBlocks (left bytes : List UInt8) : Except BadBytes (List Char) := do
  if bytes.isEmpty then
    if left.isEmpty then return [] else throw (cutOff 0 left)
  else
    let (cs, left) ← decodeFrom 0 (left ++ bytes.take blockSize)
    let more ← decodeBlocks left (bytes.drop blockSize)
    return cs ++ more
termination_by bytes.length
decreasing_by
  rename_i h
  have : 0 < bytes.length := by
    rw [List.length_pos_iff]
    simpa using h
  simp only [List.length_drop, blockSize]
  omega

end Utf8

/-- Every line break as a line feed: a carriage return, alone or before a line feed, becomes one. -/
def unifyLines : List Char → List Char
  | '\r' :: '\n' :: rest => '\n' :: unifyLines rest
  | '\r' :: rest => '\n' :: unifyLines rest
  | c :: rest => c :: unifyLines rest
  | [] => []

end Stencil.Text
