/-! # Base 64

Bytes written as characters of six bits each. Characters outside of the alphabet do not count, and
nothing counts after complete padding. -/

namespace Stencil.Yaml.Base64

/-- The six bits that a character stands for. -/
def sextet? (c : Char) : Option Nat :=
  let n := c.toNat
  if 'A' ≤ c && c ≤ 'Z' then some (n - 65)
  else if 'a' ≤ c && c ≤ 'z' then some (n - 71)
  else if '0' ≤ c && c ≤ '9' then some (n + 4)
  else if c == '+' then some 62
  else if c == '/' then some 63
  else none

/-- The bytes of a group of up to four characters: one less than there are characters. -/
def groupBytes : List Nat → List UInt8
  | [a, b] => [UInt8.ofNat (a * 4 + b / 16)]
  | [a, b, c] => [UInt8.ofNat (a * 4 + b / 16), UInt8.ofNat (b % 16 * 16 + c / 4)]
  | [a, b, c, d] =>
    [UInt8.ofNat (a * 4 + b / 16), UInt8.ofNat (b % 16 * 16 + c / 4), UInt8.ofNat (c % 4 * 64 + d)]
  | _ => []

/-- Read characters after those of an incomplete group and so many padding signs. -/
def readFrom (group : List Nat) (pads : Nat) : List Char → Option (List UInt8)
  | [] => if group.isEmpty then some [] else none
  | c :: rest =>
    if c == '=' then
      if 2 ≤ group.length then
        if 4 ≤ group.length + (pads + 1) then some (groupBytes group)
        else readFrom group (pads + 1) rest
      else readFrom group pads rest
    else
      match sextet? c with
      | none => readFrom group pads rest
      | some n =>
        if group.length = 3 then
          (readFrom [] 0 rest).map (groupBytes (group ++ [n]) ++ ·)
        else readFrom (group ++ [n]) 0 rest

/-- **Read bytes**; the last group has to be complete or padded. -/
def read? (s : List Char) : Option (List UInt8) := readFrom [] 0 s

end Stencil.Yaml.Base64
