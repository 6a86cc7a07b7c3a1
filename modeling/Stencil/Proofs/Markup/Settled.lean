import Stencil.Proofs.Markup.Escape

/-! # Sites that are open where a text ends

What a closing brace behind a text ends.

* `Cut.append_open`: a text without a closing brace ends no site of the text before it.
* `Cut.concat_brace`: **a closing brace ends at most one site**, the first that is open there.
* `pieces_append_settled` and `exists_site_of_not_settled` say what the pieces are in either case, and
  `settled_iff` that the last piece tells which it is. -/

namespace Stencil.Markup

variable {wanted : List Char → Bool}

/-- A text without a closing brace has no site. -/
theorem cut_of_not_mem {t : List Char} (h : '\x7d' ∉ t) : Cut wanted t (t.map .char) := by
  induction t with
  | nil => exact .nil
  | cons c t ih =>
      refine .char ?_ (ih fun hmem => h (List.mem_cons_of_mem c hmem))
      rintro ⟨rest, hs, -, hmem⟩
      rw [hs] at h
      exact h (List.mem_cons_of_mem _ (List.mem_cons_of_mem _ hmem))

/-- A text without a closing brace, behind another one, is in no site, and ends none. -/
theorem Cut.append_open (hw : SeesNumberSign wanted) {s t : List Char} {ps : List Piece}
    (hs : Cut wanted s ps) (hopen : '\x7d' ∉ t) (ht : t.head? ≠ some '\x7b') :
    Cut wanted (s ++ t) (ps ++ t.map .char) := by
  induction hs with
  | nil => exact cut_of_not_mem hopen
  | @char c s ps plain rest ih =>
      rw [List.cons_append]
      refine .char ?_ ih
      rintro ⟨inner, hbegins, hwanted, hmem⟩
      obtain ⟨rfl, hbrace⟩ := List.cons.inj hbegins
      cases s with
      | nil =>
          exact ht (congrArg List.head? hbrace)
      | cons d s =>
          rw [List.cons_append] at hbrace
          obtain ⟨rfl, rfl⟩ := List.cons.inj hbrace
          -- the site ends before the second text, and so it is there without it
          have hin : '\x7d' ∈ s := (List.mem_append.mp hmem).resolve_right hopen
          rw [hw.append (List.ne_nil_of_mem hin)] at hwanted
          exact plain ⟨s, rfl, hwanted, hin⟩
  | @site inner after ps sort closed rest ih =>
      rw [List.append_assoc]
      exact .site (hw.site sort _) closed ih

/-- A text is settled if it is behind its first character, and that opens no site. -/
theorem Settled.cons {c : Char} {s : List Char} (h : Settled wanted s)
    (hc : ∀ inner, c = '$' → s = '\x7b' :: inner → wanted inner = true → False) :
    Settled wanted (c :: s) := by
  intro before rest hs hwanted
  cases before with
  | nil =>
      obtain ⟨rfl, rfl⟩ := List.cons.inj hs
      exact (hc rest rfl rfl hwanted).elim
  | cons b before => exact h before rest (List.cons.inj hs).2 hwanted

/-- A text is settled if what stands behind a closing brace of it is. -/
theorem Settled.brace {s : List Char} (h : Settled wanted s) (t : List Char) :
    Settled wanted (t ++ '\x7d' :: s) := by
  intro before rest hs hwanted
  rcases List.append_eq_append_iff.mp hs with ⟨mid, rfl, hmid⟩ | ⟨mid, rfl, hmid⟩
  · -- the site is opened behind the brace
    cases mid with
    | nil => cases hmid
    | cons c mid =>
        obtain ⟨-, hmid⟩ := List.cons.inj hmid
        exact h mid rest hmid hwanted
  · -- it is opened before it
    match mid, hmid with
    | [], hmid => cases hmid
    | [_], hmid => cases hmid
    | _ :: _ :: mid, hmid =>
        obtain ⟨-, hmid⟩ := List.cons.inj hmid
        obtain ⟨-, rfl⟩ := List.cons.inj hmid
        simp

/-- A character that opens no site begins none when a closing brace comes behind the text. -/
theorem not_begins_concat_brace (hw : SeesNumberSign wanted) {c : Char} {s : List Char}
    (hc : ∀ inner, c = '$' → s = '\x7b' :: inner → wanted inner = true → False) :
    ¬ Begins wanted (c :: (s ++ ['\x7d'])) := by
  rintro ⟨inner, hbegins, hwanted, -⟩
  obtain ⟨rfl, hbrace⟩ := List.cons.inj hbegins
  cases s with
  | nil => cases hbrace
  | cons d s =>
      rw [List.cons_append] at hbrace
      obtain ⟨rfl, rfl⟩ := List.cons.inj hbrace
      rw [hw.brace] at hwanted
      exact hc s rfl rfl hwanted

/-- Nor does it begin one in the front of the text. -/
theorem not_begins_front (hw : SeesNumberSign wanted) {c : Char} {front s : List Char}
    (hc : ∀ inner, c = '$' → front ++ s = '\x7b' :: inner → wanted inner = true → False) :
    ¬ Begins wanted (c :: front) := by
  rintro ⟨inner, hbegins, hwanted, hmem⟩
  obtain ⟨rfl, rfl⟩ := List.cons.inj hbegins
  refine hc (inner ++ s) rfl rfl ?_
  rw [hw.append (List.ne_nil_of_mem hmem)]
  exact hwanted

/-- **A closing brace ends at most one site.** If every site that is opened before it is closed before
it, it is a character; if not, it ends the first one that is not. -/
theorem Cut.concat_brace (hw : SeesNumberSign wanted) {s : List Char} {ps : List Piece}
    (hs : Cut wanted s ps) :
    Settled wanted s ∧ Cut wanted (s ++ ['\x7d']) (ps ++ [.char '\x7d']) ∨
      ∃ front inner qs, s = front ++ '$' :: '\x7b' :: inner ∧ '\x7d' ∉ inner ∧ wanted inner = true ∧
        Cut wanted front qs ∧ Cut wanted (s ++ ['\x7d']) (qs ++ [.site inner]) := by
  induction hs with
  | nil =>
      refine Or.inl ⟨fun before rest hs => ?_, .char (not_begins_of_ne (by decide) _) .nil⟩
      simp at hs
  | @char c s ps plain rest ih =>
      by_cases hopens : ∃ inner, c = '$' ∧ s = '\x7b' :: inner ∧ wanted inner = true
      · -- the site that is opened here is the first one that is left open
        obtain ⟨inner, rfl, rfl, hwanted⟩ := hopens
        have hopen : '\x7d' ∉ inner := fun hmem => plain ⟨inner, rfl, hwanted, hmem⟩
        refine Or.inr ⟨[], inner, [], rfl, hopen, hwanted, .nil, ?_⟩
        have hsite : Cut wanted (Piece.siteText inner ++ []) [.site inner] :=
          .site (by rw [hw.brace]; exact hwanted) hopen .nil
        rw [List.append_nil] at hsite
        exact hsite
      · have hc : ∀ inner, c = '$' → s = '\x7b' :: inner → wanted inner = true → False :=
          fun inner hdollar hs hwanted => hopens ⟨inner, hdollar, hs, hwanted⟩
        have hplain := not_begins_concat_brace hw hc
        rcases ih with ⟨hsettled, hcut⟩ | ⟨front, inner, qs, rfl, hopen, hwanted, hfront, hcut⟩
        · exact Or.inl ⟨hsettled.cons hc, .char hplain hcut⟩
        · exact Or.inr ⟨c :: front, inner, .char c :: qs, rfl, hopen, hwanted,
            .char (not_begins_front hw hc) hfront, .char hplain hcut⟩
  | @site inner after ps sort closed rest ih =>
      rcases ih with ⟨hsettled, hcut⟩ | ⟨front, inner', qs, rfl, hopen, hwanted, hfront, hcut⟩
      · refine Or.inl ⟨?_, ?_⟩
        · rw [siteText_append]
          exact hsettled.brace ('$' :: '\x7b' :: inner)
        · rw [List.append_assoc]
          exact .site (hw.site sort _) closed hcut
      · refine Or.inr ⟨Piece.siteText inner ++ front, inner', .site inner :: qs, ?_, hopen, hwanted,
          .site (hw.site sort _) closed hfront, ?_⟩
        · rw [List.append_assoc]
        · rw [List.append_assoc]
          exact .site (hw.site sort _) closed hcut

/-- A backslash is a piece of its own, whatever stands before it. -/
theorem pieces_concat_backslash (hw : SeesNumberSign wanted) (s : List Char) :
    pieces wanted (s ++ ['\\']) = pieces wanted s ++ [.char '\\'] :=
  (cut_iff.mp ((cut_pieces s).append_open hw (by decide) (by decide))).symm

/-- **A closing brace that ends no site** is a character, and so is all that stands between it and an
earlier text, if that does not begin with an opening brace and has no other closing brace. -/
theorem pieces_append_settled (hw : SeesNumberSign wanted) {s t : List Char} (hopen : '\x7d' ∉ t)
    (ht : t.head? ≠ some '\x7b') (h : Settled wanted (s ++ t)) :
    pieces wanted (s ++ (t ++ ['\x7d'])) = pieces wanted s ++ (t ++ ['\x7d']).map .char := by
  have hcut := (cut_pieces s).append_open hw hopen ht
  rcases hcut.concat_brace hw with ⟨-, hbrace⟩ | ⟨front, inner, qs, hsplit, hnone, hwanted, -⟩
  · rw [← List.append_assoc, ← cut_iff.mp hbrace, List.map_append, List.append_assoc]
    rfl
  · exact absurd (h front inner hsplit hwanted) hnone

/-- **A closing brace that ends a site** ends the first one that is open. -/
theorem exists_site_of_not_settled (hw : SeesNumberSign wanted) {s : List Char}
    (h : ¬ Settled wanted s) : ∃ front inner, s = front ++ '$' :: '\x7b' :: inner ∧
      pieces wanted (s ++ ['\x7d']) = pieces wanted front ++ [.site inner] := by
  rcases (cut_pieces s).concat_brace hw with ⟨hsettled, -⟩ | ⟨front, inner, qs, hs, -, -, hfront, hcut⟩
  · exact absurd hsettled h
  · refine ⟨front, inner, hs, ?_⟩
    rw [← cut_iff.mp hcut, cut_iff.mp hfront]

/-- Whether a text is settled is told by the piece that a closing brace behind it is. -/
theorem settled_iff (hw : SeesNumberSign wanted) {s : List Char} :
    Settled wanted s ↔ (pieces wanted (s ++ ['\x7d'])).getLast? = some (.char '\x7d') := by
  constructor
  · intro h
    have hpieces := pieces_append_settled hw (t := []) (by simp) (by simp) (by rwa [List.append_nil])
    rw [List.nil_append] at hpieces
    rw [hpieces]
    exact List.getLast?_concat
  · intro hlast
    by_contra h
    obtain ⟨front, inner, -, hpieces⟩ := exists_site_of_not_settled hw h
    rw [hpieces, List.getLast?_concat] at hlast
    cases hlast

end Stencil.Markup
