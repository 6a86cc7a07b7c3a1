import Stencil.Markup.Segment
import Stencil.Markup.Token
import Stencil.Proofs.Markup.Closed

/-! # Escaping a text

A text in which a backslash stands before every site is read as the text itself.

* `Cut` says which pieces a text is cut into: its leftmost sites that do not overlap, and its other
  characters; `cut_iff` says that cutting finds these pieces, and there are no others.
* `escape` puts a backslash before each site, and `Escapes` says the same of `Cut`.
* `pieces_escape_append`: in an escaped text the sites are those of the text, each behind its
  backslash, whatever stands behind.
* `Token.ofPieces_shielded` and `Segment.ofPieces_shielded`: such pieces are one run of text.
* `Token.scan_escape` and `Segment.scan_escape`: what is read off an escaped text is the text. -/

namespace Stencil

namespace Markup

/-! ## Leftmost sites -/

/-- Whether a text **begins with a site** of a sort, which is closed somewhere. -/
def Begins (wanted : List Char → Bool) (s : List Char) : Prop :=
  ∃ rest, s = '$' :: '\x7b' :: rest ∧ wanted rest = true ∧ '\x7d' ∈ rest

/-- **How a text is cut** at the sites of a sort. Where a site begins, the next piece is the site, up
to its first closing brace; elsewhere it is the next character. -/
inductive Cut (wanted : List Char → Bool) : List Char → List Piece → Prop
  | nil : Cut wanted [] []
  | char {c : Char} {s : List Char} {ps : List Piece} (plain : ¬ Begins wanted (c :: s))
      (rest : Cut wanted s ps) : Cut wanted (c :: s) (.char c :: ps)
  | site {inner after : List Char} {ps : List Piece}
      (sort : wanted (inner ++ '\x7d' :: after) = true) (closed : '\x7d' ∉ inner)
      (rest : Cut wanted after ps) : Cut wanted (Piece.siteText inner ++ after) (.site inner :: ps)

variable {wanted : List Char → Bool}

/-- Only a dollar sign begins a site. -/
theorem not_begins_of_ne {c : Char} (h : c ≠ '$') (s : List Char) : ¬ Begins wanted (c :: s) := by
  rintro ⟨rest, hs, -⟩
  exact h (List.cons.inj hs).1

/-- A site, and the text behind it. -/
theorem siteText_append (inner after : List Char) :
    Piece.siteText inner ++ after = '$' :: '\x7b' :: (inner ++ '\x7d' :: after) := by
  simp [Piece.siteText]

/-- A text that begins with a site. -/
theorem begins_site {inner after : List Char} (h : wanted (inner ++ '\x7d' :: after) = true) :
    Begins wanted (Piece.siteText inner ++ after) :=
  ⟨_, siteText_append inner after, h, by simp⟩

/-- The pieces of a text cut it. -/
theorem cut_pieces (s : List Char) : Cut wanted s (pieces wanted s) := by
  fun_induction pieces wanted s with
  | case1 => exact .nil
  | case2 c =>
      refine .char ?_ .nil
      rintro ⟨rest, hs, -⟩
      cases hs
  | case3 c d rest hc inner after hcut ih =>
      obtain ⟨rfl, rfl, hwanted⟩ := hc
      obtain ⟨rfl, hinner⟩ := Text.eq_of_cut? hcut
      rw [← siteText_append]
      exact .site hwanted hinner ih
  | case4 c d rest hc hcut ih =>
      refine .char ?_ ih
      rintro ⟨rest', hs, -, hclosed⟩
      cases hs
      exact Text.cut?_eq_none_iff.mp hcut hclosed
  | case5 c d rest hc ih =>
      refine .char ?_ ih
      rintro ⟨rest', hs, hwanted, -⟩
      cases hs
      exact hc ⟨rfl, rfl, hwanted⟩

/-- A character that begins no site is a piece. -/
theorem pieces_char {c : Char} {s : List Char} (h : ¬ Begins wanted (c :: s)) :
    pieces wanted (c :: s) = .char c :: pieces wanted s := by
  cases s with
  | nil => rw [pieces, pieces]
  | cons d rest =>
      rw [pieces]
      split
      · rename_i hc
        obtain ⟨rfl, rfl, hwanted⟩ := hc
        split
        · rename_i inner after hcut
          refine absurd ⟨rest, rfl, hwanted, ?_⟩ h
          rw [(Text.eq_of_cut? hcut).1]
          simp
        · rfl
      · rfl

/-- A site at the front of a text is a piece. -/
theorem pieces_siteText {inner after : List Char} (hsort : wanted (inner ++ '\x7d' :: after) = true)
    (hclosed : '\x7d' ∉ inner) :
    pieces wanted (Piece.siteText inner ++ after) = .site inner :: pieces wanted after := by
  rw [siteText_append]
  exact pieces_site hsort (Text.cut?_append_cons hclosed after)

/-- **Cutting finds the pieces of a text**, and there are no others. -/
theorem cut_iff {s : List Char} {ps : List Piece} : Cut wanted s ps ↔ ps = pieces wanted s := by
  constructor
  · intro h
    induction h with
    | nil => rw [pieces]
    | char plain _ ih => rw [pieces_char plain, ih]
    | site sort closed _ ih => rw [pieces_siteText sort closed, ih]
  · rintro rfl
    exact cut_pieces s

/-- A text that begins with a site is cut at this site first. -/
theorem Cut.of_begins {s : List Char} {ps : List Piece} (h : Cut wanted s ps)
    (hs : Begins wanted s) : ∃ inner rest, ps = .site inner :: rest := by
  cases h with
  | nil =>
      obtain ⟨rest, hnil, -⟩ := hs
      cases hnil
  | char plain => exact absurd hs plain
  | site => exact ⟨_, _, rfl⟩

/-! ## Backslashes before sites -/

namespace Piece

/-- A piece with a backslash before it, if it is a site. -/
def escaped : Piece → List Char
  | .char c => [c]
  | .site inner => '\\' :: siteText inner

/-- The pieces of an escaped piece. -/
def shielded : Piece → List Piece
  | .char c => [.char c]
  | .site inner => [.char '\\', .site inner]

end Piece

/-- **Escape a text**: put a backslash before each of its sites. -/
def escape (wanted : List Char → Bool) (s : List Char) : List Char :=
  (pieces wanted s).flatMap Piece.escaped

/-- Whether a text is another one with a **backslash before each of the leftmost sites** that do not
overlap. -/
def Escapes (wanted : List Char → Bool) (s t : List Char) : Prop :=
  ∃ ps, Cut wanted s ps ∧ t = ps.flatMap Piece.escaped

/-- **Every text can be escaped in one way.** -/
theorem escapes_iff {s t : List Char} : Escapes wanted s t ↔ t = escape wanted s := by
  constructor
  · rintro ⟨ps, hcut, rfl⟩
    rw [cut_iff.mp hcut]
    rfl
  · rintro rfl
    exact ⟨_, cut_pieces s, rfl⟩

/-- Escaping adds only backslashes. -/
theorem mem_flatMap_escaped {c : Char} (h : c ≠ '\\') {ps : List Piece} :
    c ∈ ps.flatMap Piece.escaped ↔ c ∈ ps.flatMap Piece.text := by
  induction ps with
  | nil => exact Iff.rfl
  | cons p ps ih =>
      rw [List.flatMap_cons, List.flatMap_cons, List.mem_append, List.mem_append, ih]
      cases p with
      | char d => exact Iff.rfl
      | site inner => simp [Piece.escaped, h]

/-- The pieces that cut a text, put together, are the text. -/
theorem Cut.flatMap_text {s : List Char} {ps : List Piece} (h : Cut wanted s ps) :
    ps.flatMap Piece.text = s := by
  rw [cut_iff.mp h, flatMap_text_pieces]

/-! ## The pieces of an escaped text -/

/-- Whether a sort of sites is told by **whether a number sign follows** the opening brace. -/
def SeesNumberSign (wanted : List Char → Bool) : Prop :=
  ∀ s t : List Char, (s.head? = some '#' ↔ t.head? = some '#') → wanted s = wanted t

theorem seesNumberSign_opensMarker : SeesNumberSign opensMarker := by
  intro s t h
  rw [opensMarker, opensMarker, Bool.eq_iff_iff, beq_iff_eq, beq_iff_eq]
  exact h

theorem seesNumberSign_opensPlaceholder : SeesNumberSign opensPlaceholder := by
  intro s t h
  rw [opensPlaceholder, opensPlaceholder, seesNumberSign_opensMarker s t h]

/-- Whether every site of a sort that is opened in a text is **closed in it**. -/
def Settled (wanted : List Char → Bool) (s : List Char) : Prop :=
  ∀ before rest, s = before ++ '$' :: '\x7b' :: rest → wanted rest = true → '\x7d' ∈ rest

/-- The end of a settled text is settled. -/
theorem Settled.of_append {s t : List Char} (h : Settled wanted (s ++ t)) : Settled wanted t := by
  rintro before rest rfl
  refine h (s ++ before) rest ?_
  rw [List.append_assoc]

/-- The sort of a site does not depend on what stands behind a character of it. -/
theorem SeesNumberSign.append (h : SeesNumberSign wanted) {s : List Char} (hs : s ≠ []) (t : List Char) :
    wanted (s ++ t) = wanted s := by
  obtain ⟨c, s, rfl⟩ := List.exists_cons_of_ne_nil hs
  exact h _ _ Iff.rfl

/-- The sort of a site does not depend on its end. -/
theorem SeesNumberSign.brace (h : SeesNumberSign wanted) (inner t : List Char) :
    wanted (inner ++ '\x7d' :: t) = wanted inner := by
  cases inner with
  | nil => exact h _ _ (by simp)
  | cons c inner => exact h.append (List.cons_ne_nil c inner) _

/-- The sort of a site does not depend on what stands behind it. -/
theorem SeesNumberSign.site (h : SeesNumberSign wanted) {inner after : List Char}
    (hsort : wanted (inner ++ '\x7d' :: after) = true) (t : List Char) :
    wanted (inner ++ '\x7d' :: t) = true := by
  rw [h.brace] at hsort ⊢
  exact hsort

/-- Escaping a text does not change whether it begins with a number sign. -/
theorem Cut.head?_escaped {s t : List Char} {ps : List Piece} (h : Cut wanted s ps)
    (ht : ∀ c ∈ t.head?, c = '$') :
    (ps.flatMap Piece.escaped ++ t).head? = some '#' ↔ s.head? = some '#' := by
  cases h with
  | nil =>
      constructor
      · intro hhead
        exact absurd (ht '#' hhead) (by decide)
      · intro hhead
        cases hhead
  | char plain rest => exact Iff.rfl
  | @site inner after ps sort closed rest =>
      rw [siteText_append]
      simp [Piece.escaped]

/-- A character that begins no site does not begin one in the escaped text, whatever stands behind it:
a text that begins with a dollar sign, if at all, and in which a site that was left open is not
closed. -/
theorem Cut.not_begins_escaped (hw : SeesNumberSign wanted) {c : Char} {s t : List Char}
    {ps : List Piece} (h : Cut wanted s ps) (plain : ¬ Begins wanted (c :: s))
    (ht : ∀ c ∈ t.head?, c = '$') (hclosed : Settled wanted (c :: s) ∨ '\x7d' ∉ t) :
    ¬ Begins wanted (c :: (ps.flatMap Piece.escaped ++ t)) := by
  rintro ⟨rest, hs, hwanted, hmem⟩
  obtain ⟨rfl, hbrace⟩ := List.cons.inj hs
  -- the opening brace stands in the text itself, not in a backslash or behind the text
  cases h with
  | nil =>
      have hhead : t.head? = some '\x7b' := congrArg List.head? hbrace
      exact absurd (ht '\x7b' hhead) (by decide)
  | site sort closed later => cases hbrace
  | @char d s ps plain' later =>
      obtain ⟨rfl, rfl⟩ := List.cons.inj hbrace
      have hsort : wanted s = true := by
        rw [← hwanted]
        exact hw _ _ (later.head?_escaped ht).symm
      refine plain ⟨s, rfl, hsort, ?_⟩
      rcases List.mem_append.mp hmem with hin | hbehind
      · rw [← later.flatMap_text]
        exact (mem_flatMap_escaped (by decide)).mp hin
      · rcases hclosed with hsettled | hopen
        · exact hsettled [] s rfl hsort
        · exact absurd hbehind hopen

/-- **How an escaped text is cut**: at the sites of the text, each behind its backslash. -/
theorem Cut.escaped (hw : SeesNumberSign wanted) {s t : List Char} {ps qs : List Piece}
    (hs : Cut wanted s ps) (hcut : Cut wanted t qs) (ht : ∀ c ∈ t.head?, c = '$')
    (hclosed : Settled wanted s ∨ '\x7d' ∉ t) :
    Cut wanted (ps.flatMap Piece.escaped ++ t) (ps.flatMap Piece.shielded ++ qs) := by
  induction hs with
  | nil => exact hcut
  | @char c s ps plain later ih =>
      have htail : Settled wanted s ∨ '\x7d' ∉ t := hclosed.imp_left (Settled.of_append (s := [c]))
      exact .char (later.not_begins_escaped hw plain ht hclosed) (ih htail)
  | @site inner after ps sort closed later ih =>
      have htail : Settled wanted after ∨ '\x7d' ∉ t := hclosed.imp_left Settled.of_append
      rw [List.flatMap_cons, List.flatMap_cons, List.append_assoc, List.append_assoc]
      exact .char (not_begins_of_ne (by decide) _) (.site (hw.site sort _) closed (ih htail))

/-- **The pieces of an escaped text**, before a text that cannot be taken for the end of it. -/
theorem pieces_escape_append (hw : SeesNumberSign wanted) {s t : List Char}
    (ht : ∀ c ∈ t.head?, c = '$') (hclosed : Settled wanted s ∨ '\x7d' ∉ t) :
    pieces wanted (escape wanted s ++ t) =
      (pieces wanted s).flatMap Piece.shielded ++ pieces wanted t :=
  (cut_iff.mp ((cut_pieces s).escaped hw (cut_pieces t) ht hclosed)).symm

/-- The pieces of an escaped text. -/
theorem pieces_escape (hw : SeesNumberSign wanted) (s : List Char) :
    pieces wanted (escape wanted s) = (pieces wanted s).flatMap Piece.shielded := by
  have h := pieces_escape_append hw (s := s) (t := []) (by simp) (Or.inr (by simp))
  rw [List.append_nil, pieces, List.append_nil] at h
  exact h

/-- A text in which nothing opens a site is its own escaped form. -/
theorem escape_eq_self {s : List Char} (h : ¬ ['$', '\x7b'] <:+: s) : escape wanted s = s := by
  have hall : ∀ p ∈ pieces wanted s, p.escaped = p.text := by
    intro p hp
    cases p with
    | char c => rfl
    | site inner =>
        refine absurd ?_ h
        obtain ⟨before, after, hsplit⟩ := List.append_of_mem hp
        refine ⟨before.flatMap Piece.text, inner ++ '\x7d' :: after.flatMap Piece.text, ?_⟩
        rw [← flatMap_text_pieces wanted s, hsplit]
        simp [Piece.siteText]
  rw [escape, List.flatMap_congr hall, flatMap_text_pieces]

/-! ## Reading shielded pieces -/

/-- A character before shielded pieces escapes no site, unless it is a backslash that ends the text,
and a site stands behind. -/
theorem shielded_free {c : Char} {ps qs : List Piece}
    (h : Shut (.char c :: ps) ∨ ∀ inner rest, qs ≠ .site inner :: rest) :
    ∀ inner rest, ps.flatMap Piece.shielded ++ qs = .site inner :: rest → c = '\\' → False := by
  rintro inner rest hsplit rfl
  cases ps with
  | nil =>
      rcases h with hshut | hqs
      · exact hshut rfl
      · exact hqs inner rest hsplit
  | cons p ps => cases p <;> cases hsplit

/-- A character that is added to a run goes before what is added behind it. -/
theorem push_append_ofList (run : String) (c : Char) (s : List Char) :
    run.push c ++ String.ofList s = run ++ String.ofList (c :: s) := by
  apply String.toList_inj.mp
  simp

/-- A site that is added to a run goes before what is added behind it. -/
theorem append_siteText_ofList (run : String) (inner s : List Char) :
    run ++ String.ofList (Piece.siteText inner) ++ String.ofList s =
      run ++ String.ofList (Piece.siteText inner ++ s) := by
  rw [String.append_assoc, String.ofList_append]

end Markup

open Markup

/-- **Shielded pieces are text.** What stands behind them must not be a site that their last character
would escape. -/
theorem Token.ofPieces_shielded {ps qs : List Piece}
    (h : Shut ps ∨ ∀ inner rest, qs ≠ .site inner :: rest) (p start : Nat) (run : String) :
    ofPieces p start run (ps.flatMap Piece.shielded ++ qs) =
      ofPieces (p + (ps.flatMap Piece.escaped).length) start
        (run ++ String.ofList (ps.flatMap Piece.text)) qs := by
  induction ps generalizing p run with
  | nil => simp
  | cons q ps ih =>
      have htail := ih (h.imp_left Shut.tail)
      cases q with
      | char c =>
          show ofPieces p start run (.char c :: (ps.flatMap Piece.shielded ++ qs)) = _
          rw [ofPieces, htail, push_append_ofList, Nat.add_assoc, Nat.add_comm 1]
          · rfl
          · exact shielded_free h
      | site inner =>
          show ofPieces p start run (.char '\\' :: .site inner :: (ps.flatMap Piece.shielded ++ qs)) = _
          rw [ofPieces, htail, append_siteText_ofList, List.flatMap_cons, List.flatMap_cons,
            Piece.escaped, List.length_append, List.length_cons, Piece.width, Piece.text_site]
          congr 1
          omega

/-- **Shielded pieces are one literal run.** -/
theorem Segment.ofPieces_shielded (ps : List Piece) (run : String) :
    ofPieces run (ps.flatMap Piece.shielded) =
      .ok (ofRun (run ++ String.ofList (ps.flatMap Piece.text))) := by
  induction ps generalizing run with
  | nil => simp [ofPieces]
  | cons q ps ih =>
      cases q with
      | char c =>
          have hfree : ∀ inner rest, ps.flatMap Piece.shielded ++ [] = .site inner :: rest →
              c = '\\' → False :=
            shielded_free (.inr fun inner rest h => by cases h)
          rw [List.append_nil] at hfree
          show ofPieces run (.char c :: ps.flatMap Piece.shielded) = _
          rw [ofPieces, ih, push_append_ofList]
          · rfl
          · exact hfree
      | site inner =>
          show ofPieces run (.char '\\' :: .site inner :: ps.flatMap Piece.shielded) = _
          rw [ofPieces, ih, append_siteText_ofList]
          rfl

/-- **The tokens of an escaped text**: the text itself, if it is not empty. -/
theorem Token.scan_escape (s : List Char) :
    scan (String.ofList (escape opensMarker s)) = ofRun 0 (String.ofList s) := by
  have hread : ofPieces 0 0 "" ((pieces opensMarker s).flatMap Piece.shielded ++ []) = _ :=
    ofPieces_shielded (.inr fun inner rest h => by cases h) 0 0 ""
  rw [List.append_nil, flatMap_text_pieces, String.empty_append, ofPieces] at hread
  rw [scan, String.toList_ofList, pieces_escape seesNumberSign_opensMarker, hread]

/-- **The segments of an escaped text**: the text itself, if it is not empty. -/
theorem Segment.scan_escape (s : List Char) :
    scan (String.ofList (escape opensPlaceholder s)) = .ok (ofRun (String.ofList s)) := by
  rw [scan, String.toList_ofList, pieces_escape seesNumberSign_opensPlaceholder, ofPieces_shielded,
    flatMap_text_pieces, String.empty_append]

end Stencil
