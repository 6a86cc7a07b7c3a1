import Stencil.Markup.Piece

/-! # Tokens

A source is a row of texts and directive markers. A backslash directly before a marker makes it text
and is itself dropped. Main statement: the same pieces further on give the same tokens, moved
(`ofPieces_shift`). -/

namespace Stencil

/-- A **token** of a source, with its offset in characters. -/
inductive Token where
  /-- A run of text. -/
  | text (offset : Int) (content : String)
  /-- A marker that opens a directive. -/
  | opening (offset : Int) (name arguments : String)
  /-- A marker that closes a directive. -/
  | closing (offset : Int) (name : String)
  deriving DecidableEq, Repr

namespace Token

/-- The first word of the markers that close a directive. -/
def endWord : List Char := ['e', 'n', 'd']

/-- The token of a marker, by what follows its number sign: the first word is the name, and the rest,
without blanks around it, the arguments. -/
def ofMarker (offset : Int) (body : List Char) : Token :=
  let (name, rest) := Text.firstWord body
  let arguments := String.ofList (Text.trim rest)
  if name = endWord then .closing offset arguments
  else .opening offset (String.ofList name) arguments

/-- The token of a run of text; an empty run has none. -/
def ofRun (offset : Nat) (content : String) : List Token :=
  if content.isEmpty then [] else [.text offset content]

open Markup in
/-- The tokens of a row of pieces. The next piece stands at `position`, and the run of text before it
began at `start` and reads `run`. -/
def ofPieces (position start : Nat) (run : String) : List Piece → List Token
  | [] => ofRun start run
  | .char '\\' :: .site inner :: rest =>
    ofPieces (position + 1 + (Piece.site inner).width) start
      (run ++ String.ofList (Piece.siteText inner)) rest
  | .char c :: rest => ofPieces (position + 1) start (run.push c) rest
  | .site inner :: rest =>
    let next := position + (Piece.site inner).width
    ofRun start run ++ ofMarker position (inner.drop 1) :: ofPieces next next "" rest

/-- A token, moved by a number of characters. -/
def shift (k : Nat) : Token → Token
  | .text offset content => .text (k + offset) content
  | .opening offset name arguments => .opening (k + offset) name arguments
  | .closing offset name => .closing (k + offset) name

/-- A marker that is moved. -/
@[simp] theorem shift_ofMarker (k : Nat) (offset : Int) (body : List Char) :
    shift k (ofMarker offset body) = ofMarker (k + offset) body := by
  simp only [ofMarker]
  split <;> rfl

/-- A run of text that is moved. -/
@[simp] theorem map_shift_ofRun (k offset : Nat) (content : String) :
    (ofRun offset content).map (shift k) = ofRun (k + offset) content := by
  simp only [ofRun]
  split
  · rfl
  · simp [shift]

/-- The same pieces further on give the same tokens, moved. -/
theorem ofPieces_shift (k position start : Nat) (run : String) (ps : List Markup.Piece) :
    ofPieces (k + position) (k + start) run ps = (ofPieces position start run ps).map (shift k) := by
  fun_induction ofPieces position start run ps with
  | case1 position start run => rw [ofPieces, map_shift_ofRun]
  | case2 position start run inner rest ih =>
    rw [ofPieces, ← ih]
    simp only [Nat.add_assoc]
  | case3 position start run c rest hfree ih =>
    rw [ofPieces, ← ih, Nat.add_assoc]
    exact hfree
  | case4 position start run inner rest next ih =>
    rw [ofPieces, List.map_append, List.map_cons, map_shift_ofRun, shift_ofMarker, ← ih]
    simp only [next, Nat.add_assoc, Int.natCast_add]

/-- **The tokens of a source.** A marker that is never closed is text. -/
def scan (source : String) : List Token :=
  ofPieces 0 0 "" (Markup.pieces Markup.opensMarker source.toList)

end Token

end Stencil
