import Stencil.Text.Utf8

/-! # UTF-16 and UTF-32

Reading texts of two-byte and four-byte units, in either order of bytes. -/

namespace Stencil.Text

/-- The order of the bytes of a unit. -/
inductive ByteOrder where
  /-- The least significant byte comes first. -/
  | little
  /-- The most significant byte comes first. -/
  | big
  deriving DecidableEq, Repr

/-- The number that a row of bytes writes. -/
def ByteOrder.unit (order : ByteOrder) (bytes : List UInt8) : Nat :=
  let value (bs : List UInt8) := bs.foldl (fun n b => n * 256 + b.toNat) 0
  match order with
  | .little => value bytes.reverse
  | .big => value bytes

namespace Utf16

/-- Read a text from a position on. A unit of the upper surrogates needs one of the lower surrogates
after it, and no other unit may be a surrogate. -/
def decodeFrom (order : ByteOrder) (position : Nat) : List UInt8 → Except BadBytes (List Char)
  | [] => .ok []
  | [a] => .error ⟨position, 1, a, "truncated data"⟩
  | a :: b :: rest =>
    let u := order.unit [a, b]
    if u < 0xD800 || 0xE000 ≤ u then do
      let cs ← decodeFrom order (position + 2) rest
      return Char.ofNat u :: cs
    else if 0xDC00 ≤ u then .error ⟨position, 2, a, "illegal encoding"⟩
    else
      match rest with
      | c :: d :: rest' =>
        let v := order.unit [c, d]
        if 0xDC00 ≤ v && v ≤ 0xDFFF then do
          let cs ← decodeFrom order (position + 4) rest'
          return Char.ofNat (0x10000 + (u - 0xD800) * 0x400 + (v - 0xDC00)) :: cs
        else .error ⟨position, 2, a, "illegal UTF-16 surrogate"⟩
      | short => .error ⟨position, 2 + short.length, a, "unexpected end of data"⟩

end Utf16

namespace Utf32

/-- Read a text from a position on. -/
def decodeFrom (order : ByteOrder) (position : Nat) : List UInt8 → Except BadBytes (List Char)
  | [] => .ok []
  | a :: b :: c :: d :: rest =>
    let u := order.unit [a, b, c, d]
    if 0xD800 ≤ u && u < 0xE000 then
      .error ⟨position, 4, a, "code point in surrogate code point range(0xd800, 0xe000)"⟩
    else if 0x110000 ≤ u then .error ⟨position, 4, a, "code point not in range(0x110000)"⟩
    else do
      let cs ← decodeFrom order (position + 4) rest
      return Char.ofNat u :: cs
  | a :: short => .error ⟨position, 1 + short.length, a, "truncated data"⟩

end Utf32

end Stencil.Text
