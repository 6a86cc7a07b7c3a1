import Mathlib.Data.List.Basic
import Stencil.Markup.Piece

/-! # Closed texts

Texts that nothing behind them can change.

* `Closed` says that a text leaves no site open and does not end with a character that looks ahead.
* `pieces_append`: behind a closed text the cutting into pieces starts afresh.
* `Closed.of_append` and `Closed.unescape` name the parts of a closed text that are closed. -/

namespace Stencil

/-- A text is **closed** if it ends with neither a backslash nor a dollar sign, and every opening of a
site has a closing brace behind it. -/
structure Closed (s : List Char) : Prop where
  /-- The last character, if there is one, means the same whatever follows. -/
  last : ∀ c ∈ s.getLast?, c ≠ '\\' ∧ c ≠ '$'
  /-- Every opening of a site is followed by a closing brace. -/
  ended : ∀ before after, s = before ++ '$' :: '\x7b' :: after → '\x7d' ∈ after

namespace Closed

/-- The empty text is closed. -/
theorem nil : Closed [] where
  last := fun c hc => by cases hc
  ended := fun before after h => by simp at h

/-- The end of a closed text is closed. -/
theorem of_append {s t : List Char} (h : Closed (s ++ t)) : Closed t := by
  refine ⟨fun c hc => h.last c ?_, fun before after ht => h.ended (s ++ before) after ?_⟩
  · rw [List.getLast?_append, hc]
    rfl
  · rw [ht, List.append_assoc]

/-- Without its first character a closed text is closed. -/
theorem tail {c : Char} {s : List Char} (h : Closed (c :: s)) : Closed s := of_append (s := [c]) h

/-- A closed text stays closed when the backslash before a dollar sign is taken away. -/
theorem unescape {s t : List Char} (h : Closed (s ++ '\\' :: '$' :: t)) : Closed (s ++ '$' :: t) := by
  refine ⟨fun c hc => h.last c ?_, fun before after hsplit => ?_⟩
  · rw [List.getLast?_append] at hc ⊢
    rw [List.getLast?_cons_cons]
    exact hc
  · rcases List.append_eq_append_iff.mp hsplit with ⟨mid, rfl, hmid⟩ | ⟨mid, rfl, hmid⟩
    · -- the opening stands behind the backslash
      refine h.ended (s ++ '\\' :: mid) after ?_
      rw [hmid, List.append_assoc, List.cons_append]
    · -- the opening stands before it, or directly behind it
      cases mid with
      | nil =>
          refine h.ended (before ++ ['\\']) after ?_
          rw [hmid, List.append_nil, List.append_assoc]
          rfl
      | cons x mid =>
          cases mid with
          | nil => simp at hmid
          | cons y mid =>
              obtain ⟨rfl, rfl, rfl⟩ := hmid
              have hmem : '\x7d' ∈ mid ++ '\\' :: '$' :: t := h.ended before _ (by simp)
              simpa using hmem

/-- A text that ends with a closing brace is closed. -/
theorem of_getLast? {s : List Char} (h : s.getLast? = some '\x7d') : Closed s := by
  refine ⟨fun c hc => ?_, fun before after hs => ?_⟩
  · rw [h] at hc
    obtain rfl := Option.some.inj hc
    decide
  · rw [hs, List.getLast?_append, List.getLast?_cons_cons] at h
    -- the last character is not the opening brace, and so stands behind it
    cases after with
    | nil => cases h
    | cons c after => exact List.mem_of_getLast? h

/-- What ends with a closing brace is closed, whatever stands before it. -/
theorem append_brace (s t : List Char) : Closed (s ++ (t ++ ['\x7d'])) := by
  refine of_getLast? ?_
  rw [← List.append_assoc]
  exact List.getLast?_concat

/-- A site is closed. -/
theorem siteText (inner : List Char) : Closed (Markup.Piece.siteText inner) :=
  append_brace ['$', '\x7b'] inner

end Closed

/-! ## Pieces of a closed text -/

namespace Markup

/-- Only the first character behind an opening tells whether a site is wanted. -/
def LooksAtHead (wanted : List Char → Bool) : Prop :=
  ∀ c rest rest', wanted (c :: rest) = wanted (c :: rest')

theorem looksAtHead_opensMarker : LooksAtHead opensMarker := fun _ _ _ => rfl

theorem looksAtHead_opensPlaceholder : LooksAtHead opensPlaceholder := fun _ _ _ => rfl

/-- A character that begins no site, before more text. -/
theorem pieces_cons {wanted : List Char → Bool} {c : Char} {s : List Char}
    (h : ∀ rest, c = '$' → s = '\x7b' :: rest → wanted rest = true → False) :
    pieces wanted (c :: s) = .char c :: pieces wanted s := by
  cases s with
  | nil => simp [pieces]
  | cons d rest =>
      rw [pieces, if_neg]
      rintro ⟨hc, rfl, hwanted⟩
      exact h rest hc rfl hwanted

/-- A site at the front of a text. -/
theorem pieces_site {wanted : List Char → Bool} {rest inner after : List Char}
    (hwanted : wanted rest = true) (hcut : Text.cut? '\x7d' rest = some (inner, after)) :
    pieces wanted ('$' :: '\x7b' :: rest) = .site inner :: pieces wanted after := by
  rw [pieces, if_pos ⟨rfl, rfl, hwanted⟩]
  split
  · rename_i inner' after' hcut'
    rw [hcut] at hcut'
    obtain ⟨rfl, rfl⟩ := Prod.mk.inj (Option.some.inj hcut')
    rfl
  · rename_i hnone
    rw [hcut] at hnone
    cases hnone

/-- **Behind a closed text the pieces start afresh.** -/
theorem pieces_append {wanted : List Char → Bool} (hwanted : LooksAtHead wanted) {s : List Char}
    (h : Closed s) (t : List Char) :
    pieces wanted (s ++ t) = pieces wanted s ++ pieces wanted t := by
  fun_induction pieces wanted s with
  | case1 => rfl
  | case2 c =>
      refine pieces_cons fun rest hc _ _ => ?_
      exact (h.last c rfl).2 hc
  | case3 c d rest hc inner after hcut ih =>
      obtain ⟨rfl, rfl, hw⟩ := hc
      obtain ⟨rfl, hinner⟩ := Text.eq_of_cut? hcut
      -- the site ends in the first text, so that the cut is the same with more text behind it
      have hcut' : Text.cut? '\x7d' (inner ++ '\x7d' :: after ++ t) = some (inner, after ++ t) := by
        rw [List.append_assoc, List.cons_append]
        exact Text.cut?_append_cons hinner (after ++ t)
      have hw' : wanted (inner ++ '\x7d' :: after ++ t) = true := by
        rw [← hw]
        cases inner with
        | nil => exact hwanted _ _ _
        | cons e inner => exact hwanted _ _ _
      have hafter : Closed after := (h.tail.tail.of_append (s := inner)).tail
      rw [List.cons_append, List.cons_append, pieces_site hw' hcut', ih hafter, List.cons_append]
  | case4 c d rest hc hcut ih =>
      obtain ⟨rfl, rfl, -⟩ := hc
      exact absurd (h.ended [] rest rfl) (Text.cut?_eq_none_iff.mp hcut)
  | case5 c d rest hc ih =>
      have hcons : pieces wanted (c :: (d :: rest ++ t)) = .char c :: pieces wanted (d :: rest ++ t) := by
        refine pieces_cons fun rest' hc' hrest hw => hc ?_
        obtain ⟨rfl, rfl⟩ := List.cons.inj hrest
        refine ⟨hc', rfl, ?_⟩
        -- the text is closed, so that what follows the opening begins in it
        have hmem := h.ended [] rest (by rw [hc']; rfl)
        obtain ⟨e, rest, rfl⟩ := List.exists_cons_of_ne_nil (List.ne_nil_of_mem hmem)
        rw [← hw]
        exact hwanted _ _ _
      rw [List.cons_append, hcons, ih h.tail, List.cons_append]

/-- Whether a row of pieces is **shut**: it does not end with a backslash, which would look into what
follows. -/
def Shut (ps : List Piece) : Prop := ps.getLast? ≠ some (.char '\\')

/-- Without its first piece a row stays shut. -/
theorem Shut.tail {q : Piece} {ps : List Piece} (h : Shut (q :: ps)) : Shut ps := by
  intro hlast
  rw [Shut, List.getLast?_cons, hlast] at h
  exact h rfl

/-- A character that escapes no site of a row escapes none behind it: the row is shut, or what stands
behind it does not begin with a site. -/
theorem free_append {c : Char} {ps qs : List Piece}
    (h : Shut (.char c :: ps) ∨ ∀ inner rest, qs ≠ .site inner :: rest)
    (hfree : ∀ inner rest, ps = .site inner :: rest → c = '\\' → False) :
    ∀ inner rest, ps ++ qs = .site inner :: rest → c = '\\' → False := by
  intro inner rest hsplit hc
  cases ps with
  | nil =>
      rcases h with hshut | hqs
      · exact hshut (by rw [hc]; rfl)
      · exact hqs inner rest hsplit
  | cons q ps =>
      obtain ⟨rfl, -⟩ := List.cons.inj hsplit
      exact hfree inner ps rfl hc

/-- The pieces of a text that does not end with a backslash are shut. -/
theorem shut_pieces_of_getLast? (wanted : List Char → Bool) {s : List Char}
    (h : s.getLast? ≠ some '\\') : Shut (pieces wanted s) := by
  intro hlast
  -- the last piece would be the last character
  obtain ⟨front, hfront⟩ := List.getLast?_eq_some_iff.mp hlast
  have hs := flatMap_text_pieces wanted s
  rw [hfront, List.flatMap_append] at hs
  refine h ?_
  rw [← hs]
  simp

/-- The pieces of a closed text are shut. -/
theorem shut_pieces (wanted : List Char → Bool) {s : List Char} (h : Closed s) :
    Shut (pieces wanted s) :=
  shut_pieces_of_getLast? wanted fun hlast => (h.last '\\' hlast).1 rfl

end Markup

end Stencil
