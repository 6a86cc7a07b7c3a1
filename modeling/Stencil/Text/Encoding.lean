import Stencil.Text.CodePage
import Stencil.Text.Utf16

/-! # Encodings

The encodings of template files, by name, and reading bytes in one of them. Not all encodings that have
a name are known here; what an engine does with a file is stated for any `Decoder`. -/

namespace Stencil.Text

/-- An **encoding**. -/
inductive Encoding where
  /-- UTF-8. -/
  | utf8
  /-- UTF-8, with an optional mark at the beginning. -/
  | utf8Marked
  /-- UTF-16 in a given order of bytes, or in the order that a mark at the beginning gives. -/
  | utf16 (order : Option ByteOrder)
  /-- UTF-32 in a given order of bytes, or in the order that a mark at the beginning gives. -/
  | utf32 (order : Option ByteOrder)
  /-- The characters below 128. -/
  | ascii
  /-- The characters below 256. -/
  | latin1
  /-- A code page. -/
  | codePage (page : CodePage)

/-- Why bytes are not read. -/
inductive DecodeError where
  /-- There is no encoding of this name. -/
  | unknownEncoding (name : String)
  /-- The encoding of this name does not give text. -/
  | notText (name : String)
  /-- The bytes are no text in the encoding of this name. -/
  | badBytes (codec : String) (bad : BadBytes)
  /-- The mark that gives the order of bytes is missing. -/
  | unmarked (codec : String)
  deriving DecidableEq, Repr

/-- The report of a decoding error. -/
def DecodeError.message : DecodeError → String
  | .unknownEncoding name => "unknown encoding: " ++ name
  | .notText name =>
    "'" ++ name ++ "' is not a text encoding; use codecs.open() to handle arbitrary codecs"
  | .badBytes codec bad => bad.message codec
  | .unmarked codec => codec ++ " stream does not start with BOM"

/-- A **decoder**: the text of a file in the encoding of a name, if the encoding is known and the bytes
are text in it. -/
abbrev Decoder := String → List UInt8 → Except DecodeError String

namespace Encoding

/-- A name of an encoding in the form in which names are compared: lower-case letters, digits and
points, with one underscore for whatever stands between them. -/
def normalize (name : String) : String :=
  let isPart (c : Char) := c.isAlphanum || c == '.'
  let runs := (name.toList.map Char.toLower).splitBy fun a b => isPart a == isPart b
  let parts := runs.filter fun run => run.any isPart
  String.ofList (['_'].intercalate parts)

/-- The names of UTF-8. -/
def utf8Names : List String := ["utf_8", "u8", "utf", "utf8", "utf8_ucs2", "utf8_ucs4", "cp65001"]

/-- The names of ASCII. -/
def asciiNames : List String :=
  ["ascii", "646", "ansi_x3.4_1968", "ansi_x3_4_1968", "ansi_x3.4_1986", "cp367", "csascii",
    "ibm367", "iso646_us", "iso_646.irv_1991", "iso_ir_6", "us", "us_ascii"]

/-- The names of the encoding of the characters below 256. -/
def latin1Names : List String :=
  ["latin_1", "8859", "cp819", "csisolatin1", "ibm819", "iso8859", "iso8859_1", "iso_8859_1",
    "iso_8859_1_1987", "iso_ir_100", "l1", "latin", "latin1"]

/-- The names of encodings that turn bytes into bytes or text into text. -/
def otherNames : List String :=
  ["rot13", "rot_13", "base64", "base_64", "base64_codec", "hex", "hex_codec", "bz2", "bz2_codec",
    "zip", "zlib", "zlib_codec", "uu", "uu_codec", "quopri", "quopri_codec", "quoted_printable"]

/-- The encoding of a name, among those that are known here. -/
def find (name : String) : Except DecodeError Encoding :=
  let n := normalize name
  if utf8Names.contains n then .ok .utf8
  else if n == "utf_8_sig" then .ok .utf8Marked
  else if asciiNames.contains n then .ok .ascii
  else if latin1Names.contains n then .ok .latin1
  else if ["utf_16", "u16", "utf16"].contains n then .ok (.utf16 none)
  else if ["utf_16_le", "utf_16le", "unicodelittleunmarked"].contains n then
    .ok (.utf16 (some .little))
  else if ["utf_16_be", "utf_16be", "unicodebigunmarked"].contains n then .ok (.utf16 (some .big))
  else if ["utf_32", "u32", "utf32"].contains n then .ok (.utf32 none)
  else if ["utf_32_le", "utf_32le"].contains n then .ok (.utf32 (some .little))
  else if ["utf_32_be", "utf_32be"].contains n then .ok (.utf32 (some .big))
  else if otherNames.contains n then .error (.notText name)
  else
    match CodePage.all.find? fun page => page.names.contains n with
    | some page => .ok (.codePage page)
    | none => .error (.unknownEncoding name)

/-- Read bytes one by one; the reason is given for the first that is no character. -/
def decodeBytes (char? : UInt8 → Option Char) (codec reason : String) (bytes : List UInt8) :
    Except DecodeError (List Char) :=
  (bytes.zipIdx).mapM fun (b, i) =>
    match char? b with
    | some c => .ok c
    | none => .error (.badBytes codec ⟨i, 1, b, reason⟩)

/-- The suffix of a name that tells the order of bytes. -/
def orderSuffix : ByteOrder → String
  | .little => "-le"
  | .big => "-be"

/-- Read bytes whose order is given by a mark. Without a mark the bytes must still be readable with the
least significant byte first, but are refused; fewer bytes than a mark has are read as they are. -/
def decodeMarked (codec : String) (size : Nat)
    (decodeFrom : ByteOrder → Nat → List UInt8 → Except BadBytes (List Char)) (bytes : List UInt8) :
    Except DecodeError (List Char) :=
  let mark := bytes.take size
  let run (order : ByteOrder) (skip : Nat) :=
    (decodeFrom order skip (bytes.drop skip)).mapError
      (.badBytes (codec.map Char.toLower ++ orderSuffix order))
  if mark.length < size then run .little 0
  else if ByteOrder.unit .little mark = 0xFEFF then run .little size
  else if ByteOrder.unit .big mark = 0xFEFF then run .big size
  else do
    let _ ← run .little 0
    throw (.unmarked codec)

/-- The mark of UTF-8. -/
def utf8Mark : List UInt8 := [0xEF, 0xBB, 0xBF]

/-- **Read bytes in an encoding.** -/
def decode : Encoding → List UInt8 → Except DecodeError (List Char)
  | .utf8, bytes => (Utf8.decode bytes).mapError (.badBytes "utf-8")
  | .utf8Marked, bytes =>
    if bytes.length < 3 && bytes.isPrefixOf utf8Mark then .ok []
    else
      let body := if utf8Mark.isPrefixOf bytes then bytes.drop 3 else bytes
      (Utf8.decode body).mapError (.badBytes "utf-8")
  | .utf16 (some order), bytes =>
    (Utf16.decodeFrom order 0 bytes).mapError (.badBytes ("utf-16" ++ orderSuffix order))
  | .utf16 none, bytes => decodeMarked "UTF-16" 2 Utf16.decodeFrom bytes
  | .utf32 (some order), bytes =>
    (Utf32.decodeFrom order 0 bytes).mapError (.badBytes ("utf-32" ++ orderSuffix order))
  | .utf32 none, bytes => decodeMarked "UTF-32" 4 Utf32.decodeFrom bytes
  | .ascii, bytes =>
    decodeBytes (fun b => if b.toNat < 128 then some (Char.ofNat b.toNat) else none) "ascii"
      "ordinal not in range(128)" bytes
  | .latin1, bytes => .ok (bytes.map fun b => Char.ofNat b.toNat)
  | .codePage page, bytes =>
    decodeBytes page.char? "charmap" "character maps to <undefined>" bytes

end Encoding

/-- The **decoder** of the encodings that are known here. The text has unified line breaks. -/
def decodeFile (encoding : String) (bytes : List UInt8) : Except DecodeError String := do
  let e ← Encoding.find encoding
  let cs ← e.decode bytes
  return String.ofList (unifyLines cs)

end Stencil.Text
