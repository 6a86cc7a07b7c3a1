import Stencil.Text.Printable

/-! # Quoted text

Text between quotes, with escapes for what cannot be shown. Single quotes are preferred; a text with
single but without double quotes is put between double ones. -/

namespace Stencil.Text

/-- The lower-case hexadecimal digits of a number, at least `width` of them. -/
def hex (width n : Nat) : List Char :=
  let ds := Nat.toDigits 16 n
  List.replicate (width - ds.length) '0' ++ ds

/-- The quote for a text: a single one unless the text has single but no double quotes. -/
def quoteFor (hasSingle hasDouble : Bool) : Char :=
  if hasSingle && !hasDouble then '\x22' else '\x27'

/-- The escapes that characters of text and bytes have in common. -/
def commonEscape? (quote : Char) (n : Nat) : Option (List Char) :=
  if n == quote.toNat then some ['\\', quote]
  else if n == 0x5C then some ['\\', '\\']
  else if n == 0x09 then some ['\\', 't']
  else if n == 0x0A then some ['\\', 'n']
  else if n == 0x0D then some ['\\', 'r']
  else none

/-- A character between quotes. -/
def quoteChar (quote c : Char) : List Char :=
  match commonEscape? quote c.toNat with
  | some e => e
  | none =>
    if isPrintable c then [c]
    else if c.toNat < 0x100 then '\\' :: 'x' :: hex 2 c.toNat
    else if c.toNat < 0x10000 then '\\' :: 'u' :: hex 4 c.toNat
    else '\\' :: 'U' :: hex 8 c.toNat

/-- A text between quotes. -/
def quoted (s : String) : String :=
  let cs := s.toList
  let quote := quoteFor (cs.contains '\x27') (cs.contains '\x22')
  String.ofList (quote :: (cs.flatMap (quoteChar quote) ++ [quote]))

/-- A byte between quotes. -/
def quoteByte (quote : Char) (b : UInt8) : List Char :=
  match commonEscape? quote b.toNat with
  | some e => e
  | none =>
    if 0x20 ≤ b.toNat && b.toNat < 0x7F then [Char.ofNat b.toNat]
    else '\\' :: 'x' :: hex 2 b.toNat

/-- A row of bytes between quotes. -/
def quotedBytes (bs : List UInt8) : String :=
  let quote := quoteFor (bs.contains 0x27) (bs.contains 0x22)
  String.ofList ('b' :: quote :: (bs.flatMap (quoteByte quote) ++ [quote]))

end Stencil.Text
