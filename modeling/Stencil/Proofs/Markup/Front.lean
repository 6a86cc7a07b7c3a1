import Stencil.Proofs.Markup.Escape
import Stencil.Proofs.Markup.Seam
import Stencil.Proofs.Markup.Tiling

/-! # What stands before a marker

The tokens of a source up to a marker are those of the source up to its closing brace.

* `Cut.front`: the pieces at the front of a text are the pieces of the front of the text.
* `Token.exists_of_ofPieces`: behind a token that is no text there is a site, and the tokens before it are
  those of the pieces before the site.
* `Token.exists_front` puts this together for a source: cut before the marker it has the tokens before it,
  and cut behind the marker these and the marker, whatever is written there instead of the rest. -/

namespace Stencil

namespace Markup

variable {wanted : List Char → Bool}

/-- **The pieces at the front of a text** are those of their own text: without what follows, no site is
opened that is closed. -/
theorem Cut.front (hw : SeesNumberSign wanted) {s : List Char} {ps qs : List Piece}
    (h : Cut wanted s (ps ++ qs)) : Cut wanted (ps.flatMap Piece.text) ps := by
  induction ps generalizing s with
  | nil => exact .nil
  | cons p ps ih =>
      rw [List.cons_append] at h
      cases h with
      | @char c s _ plain rest =>
          refine .char ?_ (ih rest)
          rintro ⟨inner, hbegins, hwanted, hmem⟩
          -- a site of the front would be one of the whole text
          refine plain ⟨inner ++ qs.flatMap Piece.text, ?_, ?_, List.mem_append_left _ hmem⟩
          · have hfront : c :: ps.flatMap Piece.text = '$' :: '\x7b' :: inner := hbegins
            rw [← rest.flatMap_text, List.flatMap_append, ← List.cons_append, hfront]
            rfl
          · rw [hw.append (List.ne_nil_of_mem hmem)]
            exact hwanted
      | @site inner after _ sort closed rest =>
          exact .site (hw.site sort _) closed (ih rest)

/-- A site ends at its first closing brace. -/
theorem Cut.not_mem_of_site {s : List Char} {ps : List Piece} (h : Cut wanted s ps) {inner : List Char}
    (hmem : .site inner ∈ ps) : '\x7d' ∉ inner := by
  induction h with
  | nil => cases hmem
  | char _ _ ih =>
      rcases List.mem_cons.mp hmem with hhead | htail
      · cases hhead
      · exact ih htail
  | site _ closed _ ih =>
      rcases List.mem_cons.mp hmem with hhead | htail
      · obtain rfl := Piece.site.inj hhead
        exact closed
      · exact ih htail

/-- A piece before a shut row keeps it shut, if it is no backslash at the end. -/
theorem Shut.cons {q : Piece} {ps : List Piece} (h : Shut ps) (hq : ps = [] → q ≠ .char '\\') :
    Shut (q :: ps) := by
  cases ps with
  | nil => exact fun hlast => hq rfl (Option.some.inj hlast)
  | cons p ps => exact fun hlast => h (by rwa [List.getLast?_cons_cons] at hlast)

end Markup

namespace Token

open Markup

/-- A run of text is text. -/
theorem isText_of_mem_ofRun {start : Nat} {run : String} {t : Token} (h : t ∈ ofRun start run) :
    t.isText = true := by
  rw [ofRun] at h
  split at h
  · cases h
  · obtain rfl := List.mem_singleton.mp h
    rfl

/-- What stands before a token that is no text, when a run of text comes first: that run and more. -/
theorem exists_of_ofRun_append {start : Nat} {run : String} {ts read rest : List Token} {t : Token}
    (h : ofRun start run ++ ts = read ++ t :: rest) (ht : t.isText = false) :
    ∃ mid, read = ofRun start run ++ mid ∧ ts = mid ++ t :: rest := by
  rcases List.append_eq_append_iff.mp h with hbehind | ⟨mid, hrun, hmid⟩
  · exact hbehind
  · cases mid with
    | nil => exact ⟨[], by simpa using hrun.symm, hmid.symm⟩
    | cons m mid =>
        -- the token would stand in the run
        obtain ⟨rfl, -⟩ := List.cons.inj hmid
        have htext := isText_of_mem_ofRun (hrun ▸ List.mem_append_right read List.mem_cons_self)
        rw [ht] at htext
        cases htext

/-- **The site behind a token** that is no text. It is not escaped, and what stands before the token are
the tokens of the pieces before the site. -/
theorem exists_of_ofPieces {p start : Nat} {run : String} {ps : List Piece} {read rest : List Token}
    {t : Token} (h : ofPieces p start run ps = read ++ t :: rest) (ht : t.isText = false) :
    ∃ qs inner later, ps = qs ++ .site inner :: later ∧ Shut qs ∧
      ofPieces p start run qs = read ∧
      t = ofMarker ((p + (qs.flatMap Piece.text).length : Nat) : Int) (inner.drop 1) := by
  fun_induction ofPieces p start run ps generalizing read with
  | case1 p start run =>
      have htext := isText_of_mem_ofRun (h ▸ List.mem_append_right read List.mem_cons_self)
      rw [ht] at htext
      cases htext
  | case2 p start run inner' later' ih =>
      obtain ⟨qs, inner, later, rfl, hshut, hread, hmarker⟩ := ih h
      refine ⟨.char '\\' :: .site inner' :: qs, inner, later, rfl, ?_, ?_, ?_⟩
      · have hsite : Shut (.site inner' :: qs) := hshut.cons (by simp)
        exact hsite.cons (by simp)
      · rw [ofPieces, hread]
      · rw [hmarker, List.flatMap_cons, List.flatMap_cons, Piece.width]
        simp only [Piece.text_char, List.length_append, List.length_singleton, Nat.add_assoc]
  | case3 p start run c later' hfree ih =>
      obtain ⟨qs, inner, later, rfl, hshut, hread, hmarker⟩ := ih h
      refine ⟨.char c :: qs, inner, later, rfl, hshut.cons fun hnil hc => ?_, ?_, ?_⟩
      · -- a backslash directly before the site would have escaped it
        subst hnil
        exact hfree inner later rfl (Piece.char.inj hc)
      · rw [ofPieces, hread]
        rintro inner' rest' rfl
        exact hfree inner' _ rfl
      · rw [hmarker, List.flatMap_cons]
        simp only [Piece.text_char, List.length_append, List.length_singleton, Nat.add_assoc]
  | case4 p start run inner' later' next =>
      rename_i ih
      obtain ⟨mid, rfl, hmid⟩ := exists_of_ofRun_append h ht
      cases mid with
      | nil =>
          obtain ⟨rfl, -⟩ := List.cons.inj hmid
          refine ⟨[], inner', later', rfl, by simp [Shut], ?_, by simp⟩
          rw [ofPieces, List.append_nil]
      | cons m mid =>
          -- the token stands behind the marker that is read here
          obtain ⟨rfl, hlater⟩ := List.cons.inj hmid
          obtain ⟨qs, inner, later, rfl, hshut, hread, hmarker⟩ := ih hlater
          refine ⟨.site inner' :: qs, inner, later, rfl, hshut.cons (by simp), ?_, ?_⟩
          · rw [ofPieces, hread]
          · rw [hmarker, List.flatMap_cons]
            simp only [next, Piece.width, List.length_append, Nat.add_assoc]

/-- **The source up to a marker** decides about the marker and all tokens before it: what is written
behind its closing brace changes none of them, and without the marker there are just the tokens before
it. -/
theorem exists_front {source : String} {read rest : List Token} {t : Token}
    (h : scan source = read ++ t :: rest) (ht : t.isText = false) :
    ∃ front inner after, source.toList = front ++ (Piece.siteText inner ++ after) ∧ '\x7d' ∉ inner ∧
      t.offset = front.length ∧ scan (String.ofList front) = read ∧
      ∀ u : String, ∃ more,
        scan (String.ofList (front ++ Piece.siteText inner) ++ u) = read ++ t :: more := by
  obtain ⟨qs, inner, later, hpieces, hshut, hread, rfl⟩ := exists_of_ofPieces h ht
  have hcut : Cut opensMarker source.toList (pieces opensMarker source.toList) := cut_pieces _
  rw [hpieces] at hcut
  have hfront : pieces opensMarker (qs.flatMap Piece.text) = qs :=
    (cut_iff.mp (hcut.front seesNumberSign_opensMarker)).symm
  have hmarker : pieces opensMarker (qs.flatMap Piece.text ++ Piece.siteText inner) =
      qs ++ [.site inner] := by
    have hsplit : qs ++ .site inner :: later = (qs ++ [.site inner]) ++ later := by simp
    rw [hsplit] at hcut
    have hpair := (cut_iff.mp (hcut.front seesNumberSign_opensMarker)).symm
    rw [List.flatMap_append] at hpair
    simpa using hpair
  refine ⟨qs.flatMap Piece.text, inner, later.flatMap Piece.text, ?_, ?_, ?_, ?_, fun u => ?_⟩
  · rw [← hcut.flatMap_text, List.flatMap_append, List.flatMap_cons, Piece.text_site]
  · exact hcut.not_mem_of_site (by simp)
  · rw [offset_ofMarker, Nat.zero_add]
  · rw [scan, String.toList_ofList, hfront, hread]
  · -- what ends with the closing brace is closed, so that a text behind it is read for itself
    have hlead : scan (String.ofList (qs.flatMap Piece.text ++ Piece.siteText inner)) =
        read ++ [ofMarker ((0 + (qs.flatMap Piece.text).length : Nat) : Int) (inner.drop 1)] := by
      have hsite : ofPieces 0 0 "" [.site inner] = [ofMarker 0 (inner.drop 1)] := rfl
      rw [scan, String.toList_ofList, hmarker, ofPieces_append (fun _ => rfl) hshut, hread, hsite,
        List.map_singleton, shift_ofMarker, seam_eq_append (fuse_ofMarker_right _ _), Int.add_zero]
    have hclosed : Closed (String.ofList (qs.flatMap Piece.text ++ Piece.siteText inner)).toList := by
      rw [String.toList_ofList]
      exact Closed.append_brace _ ('$' :: '\x7b' :: inner)
    have hmore := scan_append hclosed u
    rw [hlead, seam_append_cons (fuse_ofMarker_left _ _)] at hmore
    exact ⟨_, hmore⟩

end Token

end Stencil
