import Stencil.Markup.Piece
import Stencil.Path.Parser

/-! # Placeholders in text

A text is a row of literal runs and placeholders. A backslash directly before a placeholder makes it
literal and is itself dropped; a placeholder whose inside is no path is literal, too. Main statement:
a text is refused only because of a site (`exists_site_of_eq_error`). -/

namespace Stencil

/-- A **segment** of a text. -/
inductive Segment where
  /-- A literal run. -/
  | literal (s : String)
  /-- A placeholder, with its path and its own text. -/
  | placeholder (path : Path) (raw : String)
  deriving DecidableEq, Repr

namespace Segment

/-- The segment of a literal run; an empty run has none. -/
def ofRun (run : String) : List Segment := if run.isEmpty then [] else [.literal run]

open Markup in
/-- The segments of a row of pieces, after a literal run. -/
def ofPieces (run : String) : List Piece → Except Limit (List Segment)
  | [] => .ok (ofRun run)
  | .char '\\' :: .site inner :: rest =>
    ofPieces (run ++ String.ofList (Piece.siteText inner)) rest
  | .char c :: rest => ofPieces (run.push c) rest
  | .site inner :: rest =>
    let raw := String.ofList (Piece.siteText inner)
    match Path.parse (String.ofList inner) with
    | .ok path => do
      let segments ← ofPieces "" rest
      return ofRun run ++ .placeholder path raw :: segments
    | .error (.malformed _ _) => ofPieces (run ++ raw) rest
    | .error (.limit l) => .error l

/-- Pieces are refused only because of a site, whose inside has an index of too many digits. -/
theorem exists_site_of_eq_error {run : String} {ps : List Markup.Piece} {l : Limit}
    (h : ofPieces run ps = .error l) :
    ∃ inner, .site inner ∈ ps ∧ Path.parse (String.ofList inner) = .error (.limit l) := by
  fun_induction ofPieces run ps with
  | case1 run => cases h
  | case2 run inner rest ih =>
    obtain ⟨inner', hmem, hparse⟩ := ih h
    exact ⟨inner', by simp [hmem], hparse⟩
  | case3 run c rest _ ih =>
    obtain ⟨inner', hmem, hparse⟩ := ih h
    exact ⟨inner', by simp [hmem], hparse⟩
  | case4 run inner rest raw path hpath ih =>
    cases hrest : ofPieces "" rest with
    | error l' =>
      rw [hrest] at h ih
      obtain ⟨inner', hmem, hparse⟩ := ih h
      exact ⟨inner', by simp [hmem], hparse⟩
    | ok segments =>
      rw [hrest] at h
      cases h
  | case5 run inner rest raw text fault hpath ih =>
    obtain ⟨inner', hmem, hparse⟩ := ih h
    exact ⟨inner', by simp [hmem], hparse⟩
  | case6 run inner rest l' hpath =>
    cases h
    exact ⟨inner, by simp, hpath⟩

/-- **The segments of a text.** -/
def scan (text : String) : Except Limit (List Segment) :=
  ofPieces "" (Markup.pieces Markup.opensPlaceholder text.toList)

end Segment

end Stencil
