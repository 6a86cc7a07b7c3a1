import Stencil.Text.Blank

/-! # Sites in a text

A **site** is a dollar sign, an opening brace, and everything up to the next closing brace. A text is
cut into its sites of one sort and its other characters. Main statement: the pieces of a text, put
together again, are the text (`flatMap_text_pieces`). -/

namespace Stencil.Markup

/-- A **piece** of a text. -/
inductive Piece where
  /-- A character outside of sites. -/
  | char (c : Char)
  /-- A site, by what stands between its braces. -/
  | site (inner : List Char)
  deriving DecidableEq, Repr

namespace Piece

/-- The text of a site. -/
def siteText (inner : List Char) : List Char := '$' :: '{' :: (inner ++ ['}'])

/-- The text of a piece. -/
def text : Piece → List Char
  | .char c => [c]
  | .site inner => siteText inner

@[simp] theorem text_char (c : Char) : (Piece.char c).text = [c] := rfl

@[simp] theorem text_site (inner : List Char) : (Piece.site inner).text = siteText inner := rfl

/-- The number of characters of a piece. -/
def width (p : Piece) : Nat := p.text.length

end Piece

/-- Cut a text into pieces, from left to right. The test looks at what follows the opening brace, and
tells whether a site of the wanted sort begins there. -/
def pieces (wanted : List Char → Bool) : List Char → List Piece
  | [] => []
  | [c] => [.char c]
  | c :: d :: rest =>
    if c = '$' ∧ d = '{' ∧ wanted rest = true then
      match _h : Text.cut? '}' rest with
      | some (inner, after) => .site inner :: pieces wanted after
      | none => .char c :: pieces wanted (d :: rest)
    else .char c :: pieces wanted (d :: rest)
termination_by s => s.length
decreasing_by
  · have := Text.length_lt_of_cut? _h
    simp only [List.length_cons]
    omega
  · simp
  · simp

/-- The pieces of a text, put together again, are the text. -/
theorem flatMap_text_pieces (wanted : List Char → Bool) (s : List Char) :
    (pieces wanted s).flatMap Piece.text = s := by
  fun_induction pieces wanted s with
  | case1 => rfl
  | case2 c => rfl
  | case3 c d rest hc inner after hcut ih =>
    obtain ⟨rfl, rfl, _⟩ := hc
    simp [ih, Piece.siteText, (Text.eq_of_cut? hcut).1]
  | case4 c d rest _ _ ih => simp [ih]
  | case5 c d rest _ ih => simp [ih]

/-- Whether a directive marker begins here. -/
def opensMarker (s : List Char) : Bool := s.head? == some '#'

/-- Whether a placeholder begins here: anything but a directive marker. -/
def opensPlaceholder (s : List Char) : Bool := !opensMarker s

end Stencil.Markup
