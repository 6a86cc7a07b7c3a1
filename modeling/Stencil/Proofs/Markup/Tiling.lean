import Mathlib.Data.List.Chain
import Stencil.Proofs.Markup.Marker

/-! # Tokens tile the source

Every character of a source belongs to one token: from its own offset up to the offset of the next.

* `Covers` says what a token has to do with the stretch of the source that belongs to it: it is the
  stretch of a marker, or a text that is the stretch without the backslashes that escape markers.
* `tiles_ofPieces` says that the tokens of a row of pieces tile what is left of the source, whatever
  run of text stands before it.
* `Token.scan_tiles` is the result for a whole source. -/

namespace Stencil

namespace Token

/-- The offset of a token. -/
def offset : Token → Int
  | .text offset _ => offset
  | .opening offset _ _ => offset
  | .closing offset _ => offset

/-- Whether a token is a run of text. -/
def isText : Token → Bool
  | .text _ _ => true
  | _ => false

/-- A marker is no run of text. -/
@[simp] theorem isText_ofMarker (offset : Int) (body : List Char) :
    (ofMarker offset body).isText = false := by
  simp only [ofMarker]
  split <;> rfl

/-- A marker keeps its offset. -/
@[simp] theorem offset_ofMarker (offset : Int) (body : List Char) :
    (ofMarker offset body).offset = offset := by
  simp only [ofMarker]
  split <;> rfl

end Token

/-! ## What is kept of a text -/

/-- Whether the character at a position is a **backslash that escapes** one of the markers. -/
def escapes (s : List Char) (ms : List Marker) (p : Nat) : Bool :=
  s[p]? == some '\\' && ms.any (·.start == p + 1)

/-- A stretch of a source **without the backslashes that escape** markers. -/
def kept (s : List Char) (ms : List Marker) (a b : Nat) : List Char :=
  ((List.range' a (b - a)).filter (!escapes s ms ·)).filterMap (s[·]?)

variable {s : List Char} {ms : List Marker}

/-- Nothing is kept of an empty stretch. -/
@[simp] theorem kept_self (a : Nat) : kept s ms a a = [] := by
  simp [kept]

/-- What is kept of two stretches that follow one another. -/
theorem kept_append {a b c : Nat} (hab : a ≤ b) (hbc : b ≤ c) :
    kept s ms a c = kept s ms a b ++ kept s ms b c := by
  have hrange : List.range' a (c - a) = List.range' a (b - a) ++ List.range' b (c - b) := by
    have happ := List.range'_append_1 (s := a) (m := b - a) (n := c - b)
    rw [show a + (b - a) = b by omega, show b - a + (c - b) = c - a by omega] at happ
    exact happ.symm
  rw [kept, hrange, List.filter_append, List.filterMap_append]
  rfl

/-- What is kept of one character. -/
theorem kept_succ {p : Nat} {c : Char} (hc : s[p]? = some c) :
    kept s ms p (p + 1) = if escapes s ms p then [] else [c] := by
  rw [kept, show p + 1 - p = 1 by omega, List.range'_one]
  cases h : escapes s ms p with
  | false => simp [h, hc]
  | true => simp [h]

/-- A stretch in which no marker is escaped is kept as it is. -/
theorem kept_eq_of_forall {p : Nat} {t rest : List Char} (ht : s.drop p = t ++ rest)
    (h : ∀ i, p ≤ i → i < p + t.length → escapes s ms i = false) :
    kept s ms p (p + t.length) = t := by
  induction t generalizing p with
  | nil => exact kept_self p
  | cons c t ih =>
      have hc : s[p]? = some c := by
        rw [← List.head?_drop, ht]
        rfl
      have hdrop : s.drop (p + 1) = t ++ rest := by
        rw [← List.drop_drop, ht]
        rfl
      have hlen : p + (c :: t).length = p + 1 + t.length := by
        rw [List.length_cons]
        omega
      rw [hlen, kept_append (Nat.le_succ p) (Nat.le_add_right _ _), kept_succ hc,
        h p (Nat.le_refl p) (by omega), ih hdrop fun i hi hlt => h i (by omega) (by omega)]
      rfl

/-! ## Tiles -/

/-- What a token has to do with the stretch of the source that **belongs to it**. -/
structure Covers (s : List Char) (ms : List Marker) (t : Token) (a b : Nat) : Prop where
  /-- The token stands where the stretch begins. -/
  offset : t.offset = a
  /-- The stretch is not empty. -/
  proper : a < b
  /-- A run of text is not empty, and is what is kept of the stretch. -/
  content : ∀ o content, t = .text o content →
    content ≠ "" ∧ content.toList = kept s ms a b
  /-- Every marker that reaches into the stretch of a text is escaped, and lies in it together with
  the backslash. -/
  escaped : t.isText = true → ∀ m ∈ ms, m.start < b → a < m.stop →
    m.Escaped s ∧ a < m.start ∧ m.stop ≤ b
  /-- Any other token is the one that a marker means, which is not escaped and is the stretch. -/
  marker : t.isText = false → ∃ m ∈ ms, ¬ m.Escaped s ∧ m.start = a ∧ m.stop = b ∧ m.Means t

/-- Whether tokens **tile** a source from a position on. -/
def Tiles (s : List Char) (ms : List Marker) : Nat → List Token → Prop
  | a, [] => a = s.length
  | a, t :: ts => ∃ b, Covers s ms t a b ∧ Tiles s ms b ts

/-! ## The pieces ahead -/

namespace Markup

/-- Whether a row of pieces is **what stands ahead** of a position, with all markers. -/
structure Ahead (s : List Char) (ms : List Marker) (p : Nat) (ps : List Piece) : Prop where
  /-- The position lies in the source. -/
  within : p ≤ s.length
  /-- The pieces are what is left of the source. -/
  rest : s.drop p = ps.flatMap Piece.text
  /-- Their markers are those that are left. -/
  markers : ∀ m : Marker, p ≤ m.start → (m ∈ ms ↔ m ∈ markersFrom p ps)
  /-- All sites are markers. -/
  sites : ∀ inner, .site inner ∈ ps → inner.head? = some '#'

/-- The sites that are cut out are wanted. -/
theorem wanted_of_site_mem {inner : List Char} {t : List Char}
    (h : .site inner ∈ pieces opensMarker t) : inner.head? = some '#' := by
  fun_induction pieces opensMarker t with
  | case1 => cases h
  | case2 c => simp at h
  | case3 c d rest hc inner' after hcut ih =>
      rcases List.mem_cons.mp h with hhead | htail
      · obtain rfl := Piece.site.inj hhead
        obtain ⟨rfl, -⟩ := Text.eq_of_cut? hcut
        exact head?_of_opensMarker hc.2.2
      · exact ih htail
  | case4 c d rest hc hcut ih =>
      rcases List.mem_cons.mp h with hhead | htail
      · cases hhead
      · exact ih htail
  | case5 c d rest hc ih =>
      rcases List.mem_cons.mp h with hhead | htail
      · cases hhead
      · exact ih htail

/-- All pieces of a source stand ahead of its beginning. -/
theorem ahead_pieces (s : List Char) :
    Ahead s (markersFrom 0 (pieces opensMarker s)) 0 (pieces opensMarker s) where
  within := Nat.zero_le _
  rest := (flatMap_text_pieces opensMarker s).symm
  markers := fun _ _ => Iff.rfl
  sites := fun _ => wanted_of_site_mem

/-- Every piece has a width. -/
theorem width_pos (q : Piece) : 0 < q.width := by
  cases q <;> simp [Piece.width, Piece.siteText]

variable {p : Nat} {q : Piece} {ps : List Piece}

/-- A marker in the first piece is the first piece. -/
theorem Ahead.marker_of_lt (h : Ahead s ms p (q :: ps)) {m : Marker} (hm : m ∈ ms)
    (hle : p ≤ m.start) (hlt : m.start < p + q.width) :
    ∃ inner, q = .site inner ∧ m = ⟨p, inner.drop 1⟩ := by
  have hmem := (h.markers m hle).mp hm
  cases q with
  | char c =>
      have hge : p + 1 ≤ m.start := le_start_of_mem_markersFrom hmem
      simp only [Piece.width, Piece.text_char, List.length_singleton] at hlt
      omega
  | site inner =>
      rcases List.mem_cons.mp hmem with hhead | htail
      · exact ⟨inner, rfl, hhead⟩
      · have hge := le_start_of_mem_markersFrom htail
        omega

/-- The number of characters of a site. -/
theorem width_site_eq (inner : List Char) : (Piece.site inner).width = inner.length + 3 := by
  simp [Piece.width, Piece.siteText]

/-- A site ends with a closing brace. -/
theorem Ahead.getElem?_last {inner : List Char} (h : Ahead s ms p (.site inner :: ps)) :
    s[p + (inner.length + 2)]? = some '\x7d' := by
  rw [← List.getElem?_drop, h.rest, List.flatMap_cons, Piece.text_site, Piece.siteText]
  simp

/-- Directly behind a site no marker is escaped. -/
theorem Ahead.not_escaped {inner : List Char} (h : Ahead s ms p (.site inner :: ps))
    (body : List Char) : ¬ (Marker.mk (p + (Piece.site inner).width) body).Escaped s := by
  rintro ⟨i, hi, hback⟩
  have hwidth := width_site_eq inner
  have hlast := h.getElem?_last
  rw [show p + (inner.length + 2) = i by simp only at hi; omega, hback] at hlast
  cases hlast

/-- The character that stands ahead. -/
theorem Ahead.getElem?_char {c : Char} (h : Ahead s ms p (.char c :: ps)) : s[p]? = some c := by
  rw [← List.head?_drop, h.rest]
  rfl

/-- Pass the first piece. -/
theorem Ahead.next (h : Ahead s ms p (q :: ps)) : Ahead s ms (p + q.width) ps := by
  have hrest : s.drop p = q.text ++ ps.flatMap Piece.text := by
    rw [h.rest, List.flatMap_cons]
  refine ⟨?_, ?_, fun m hm => ?_, fun inner hmem => h.sites inner (List.mem_cons_of_mem _ hmem)⟩
  · have hlen := congrArg List.length hrest
    rw [List.length_drop, List.length_append] at hlen
    have := h.within
    rw [Piece.width]
    omega
  · rw [← List.drop_drop, hrest, Piece.width, List.drop_left]
  · have hpos := width_pos q
    rw [h.markers m (by omega)]
    cases q with
    | char c => exact Iff.rfl
    | site inner =>
        rw [markersFrom, List.mem_cons]
        constructor
        · rintro (rfl | htail)
          · exact absurd hm (by simp only; omega)
          · exact htail
        · exact Or.inr

/-- A character escapes nothing, unless it is a backslash before a site. -/
theorem Ahead.escapes_char {c : Char} (h : Ahead s ms p (.char c :: ps))
    (hfree : ∀ inner rest, c = '\\' → ps = .site inner :: rest → False) :
    escapes s ms p = false := by
  rw [escapes, h.getElem?_char, Bool.and_eq_false_iff]
  by_cases hback : c = '\\'
  · -- the next piece would be the marker that is escaped
    refine Or.inr (List.any_eq_false.mpr fun m hm hstart => ?_)
    rw [beq_iff_eq] at hstart
    have hnext : Ahead s ms (p + 1) ps := h.next
    cases ps with
    | nil => cases (hnext.markers m (Nat.le_of_eq hstart.symm)).mp hm
    | cons q rest =>
        have := width_pos q
        obtain ⟨inner, rfl, -⟩ := hnext.marker_of_lt hm (by omega) (by omega)
        exact hfree inner rest hback rfl
  · exact Or.inl (by simpa using hback)

/-- The marker that is the first piece. -/
theorem Ahead.mem_site {inner : List Char} (h : Ahead s ms p (.site inner :: ps)) :
    (⟨p, inner.drop 1⟩ : Marker) ∈ ms :=
  (h.markers _ (Nat.le_refl _)).mpr List.mem_cons_self

/-- A backslash escapes the site behind it. -/
theorem Ahead.escapes_backslash {inner : List Char}
    (h : Ahead s ms p (.char '\\' :: .site inner :: ps)) : escapes s ms p = true := by
  have hmem : (⟨p + 1, inner.drop 1⟩ : Marker) ∈ ms := h.next.mem_site
  rw [escapes, h.getElem?_char, Bool.and_eq_true]
  exact ⟨rfl, List.any_eq_true.mpr ⟨_, hmem, by simp⟩⟩

/-- The only marker that begins in a backslash and the site behind it is that site. -/
theorem Ahead.eq_site {inner : List Char} (h : Ahead s ms p (.char '\\' :: .site inner :: ps))
    {m : Marker} (hm : m ∈ ms) (hle : p ≤ m.start)
    (hlt : m.start < p + 1 + (Piece.site inner).width) : m = ⟨p + 1, inner.drop 1⟩ := by
  rcases Nat.lt_or_ge p m.start with hlt' | hge
  · obtain ⟨inner', hsite, rfl⟩ := h.next.marker_of_lt hm hlt' hlt
    obtain rfl := Piece.site.inj hsite
    rfl
  · have hfirst : m.start < p + (Piece.char '\\').width := Nat.lt_succ_of_le hge
    obtain ⟨inner', hsite, -⟩ := h.marker_of_lt hm hle hfirst
    cases hsite

/-- A site is kept as it is: it holds no other marker, and ends with no backslash. -/
theorem Ahead.kept_site {inner : List Char} (h : Ahead s ms p (.site inner :: ps)) :
    kept s ms p (p + (Piece.site inner).width) = Piece.siteText inner := by
  refine kept_eq_of_forall h.rest fun i hi hlt => ?_
  rw [← Piece.width] at hlt
  rw [escapes, Bool.and_eq_false_iff]
  rcases Nat.lt_or_ge (i + 1) (p + (Piece.site inner).width) with hlt' | hge
  · refine Or.inr (List.any_eq_false.mpr fun m hm hstart => ?_)
    rw [beq_iff_eq] at hstart
    obtain ⟨inner', -, rfl⟩ := h.marker_of_lt hm (by omega) (by omega)
    simp only at hstart
    omega
  · have hwidth := width_site_eq inner
    have hlast : s[i]? = some '\x7d' := by
      rw [show i = p + (inner.length + 2) by omega]
      exact h.getElem?_last
    exact Or.inl (by rw [hlast]; rfl)

end Markup

/-! ## The run of text before a piece -/

open Markup

/-- Whether a **run of text** is what is read between two positions: with the markers in it escaped,
and without the backslashes that do it. -/
structure Reading (s : List Char) (ms : List Marker) (a p : Nat) (run : String) : Prop where
  /-- The positions are in order. -/
  le : a ≤ p
  /-- The run is what is kept. -/
  content : run.toList = kept s ms a p
  /-- The run is not empty, unless nothing is read. -/
  proper : a < p → run ≠ ""
  /-- The markers that reach into the run are escaped, and lie in it. -/
  escaped : ∀ m ∈ ms, m.start < p → a < m.stop → m.Escaped s ∧ a < m.start ∧ m.stop ≤ p

variable {a p : Nat} {run : String} {ps : List Piece}

/-- Nothing is read between a position and itself, if no marker reaches over it. -/
theorem Reading.refl (h : ∀ m ∈ ms, m.start < p → m.stop ≤ p) : Reading s ms p p "" where
  le := Nat.le_refl p
  content := (kept_self p).symm
  proper := fun hlt => absurd hlt (Nat.lt_irrefl p)
  escaped := fun m hm hlt hstop => absurd (h m hm hlt) (Nat.not_le.mpr hstop)

/-- An empty run begins where it ends. -/
theorem Reading.eq_of_empty (h : Reading s ms a p "") : a = p :=
  Nat.le_antisymm h.le (Nat.not_lt.mp fun hlt => h.proper hlt rfl)

/-- What is read is a text. -/
theorem Reading.covers (h : Reading s ms a p run) (hne : run ≠ "") :
    Covers s ms (.text a run) a p where
  offset := rfl
  proper := by
    rcases Nat.lt_or_ge a p with hlt | hge
    · exact hlt
    · have hnil := h.content
      rw [Nat.le_antisymm h.le hge, kept_self] at hnil
      exact absurd (String.toList_eq_nil_iff.mp hnil) hne
  content := by
    rintro o content ⟨-, rfl⟩
    exact ⟨hne, h.content⟩
  escaped := fun _ => h.escaped
  marker := fun htext => by cases htext

/-- Read a character that escapes no marker. -/
theorem Reading.char {c : Char} (h : Reading s ms a p run) (hahead : Ahead s ms p (.char c :: ps))
    (hfree : ∀ inner rest, c = '\\' → ps = .site inner :: rest → False) :
    Reading s ms a (p + 1) (run.push c) := by
  have hnone : ∀ m ∈ ms, m.start ≠ p := by
    rintro m hm rfl
    obtain ⟨inner, hq, -⟩ := hahead.marker_of_lt hm (Nat.le_refl _) (Nat.lt_succ_self _)
    cases hq
  have hc := hahead.getElem?_char
  have hescapes := hahead.escapes_char hfree
  refine ⟨Nat.le_succ_of_le h.le, ?_, fun _ => ?_, fun m hm hlt hstop => ?_⟩
  · rw [String.toList_push, h.content, kept_append h.le (Nat.le_succ p), kept_succ hc, hescapes]
    rfl
  · exact String.push_ne_empty
  · have hlt' : m.start < p := Nat.lt_of_le_of_ne (Nat.le_of_lt_succ hlt) (hnone m hm)
    obtain ⟨hesc, hstart, hle⟩ := h.escaped m hm hlt' hstop
    exact ⟨hesc, hstart, Nat.le_succ_of_le hle⟩

/-- Read a marker that is escaped, without the backslash. -/
theorem Reading.escape {inner : List Char} (h : Reading s ms a p run)
    (hahead : Ahead s ms p (.char '\\' :: .site inner :: ps)) :
    Reading s ms a (p + 1 + (Piece.site inner).width)
      (run ++ String.ofList (Piece.siteText inner)) := by
  have hnext : Ahead s ms (p + 1) (.site inner :: ps) := hahead.next
  have hstop := width_site (hnext.sites inner List.mem_cons_self) (p + 1)
  have hback := hahead.getElem?_char
  refine ⟨by have := h.le; omega, ?_, fun _ => ?_, fun m hm hlt hreach => ?_⟩
  · have hle : p ≤ p + 1 + (Piece.site inner).width := by omega
    rw [String.toList_append, String.toList_ofList, h.content, kept_append h.le hle,
      kept_append (Nat.le_succ p) (Nat.le_add_right (p + 1) _), kept_succ hback,
      hahead.escapes_backslash, hnext.kept_site]
    rfl
  · intro hempty
    have hnil := congrArg String.toList hempty
    simp [Piece.siteText] at hnil
  · rcases Nat.lt_or_ge m.start p with hlt' | hge
    · obtain ⟨hesc, hstart, hle⟩ := h.escaped m hm hlt' hreach
      exact ⟨hesc, hstart, by omega⟩
    · obtain rfl := hahead.eq_site hm hge hlt
      exact ⟨⟨p, rfl, hback⟩, Nat.lt_succ_of_le h.le, Nat.le_of_eq hstop.symm⟩

/-! ## All tokens -/

/-- What is read tiles the source together with what tiles the rest. -/
theorem Reading.tiles {ts : List Token} (h : Reading s ms a p run) (hts : Tiles s ms p ts) :
    Tiles s ms a (Token.ofRun a run ++ ts) := by
  rw [Token.ofRun]
  split
  · rename_i hempty
    obtain rfl := String.isEmpty_iff.mp hempty
    rw [h.eq_of_empty]
    exact hts
  · rename_i hne
    exact ⟨p, h.covers fun hempty => hne (String.isEmpty_iff.mpr hempty), hts⟩

/-- **The tokens of what is left tile it**, from where the run of text before it began. The induction
is on the pieces; a site is only reached as a marker that is not escaped, since a backslash takes the
site behind it along. -/
theorem tiles_ofPieces (hahead : Ahead s ms p ps) (hread : Reading s ms a p run)
    (hclear : ∀ inner rest, ps = .site inner :: rest → ∀ body, ¬ (Marker.mk p body).Escaped s) :
    Tiles s ms a (Token.ofPieces p a run ps) := by
  fun_induction Token.ofPieces p a run ps with
  | case1 p a run =>
      have hend : p = s.length := by
        have hlen := List.drop_eq_nil_iff.mp hahead.rest
        exact Nat.le_antisymm hahead.within hlen
      rw [← List.append_nil (Token.ofRun a run)]
      exact hread.tiles hend
  | case2 p a run inner rest ih =>
      refine ih hahead.next.next (hread.escape hahead) ?_
      rintro inner' rest' rfl
      exact hahead.next.not_escaped
  | case3 p a run c rest hfree ih =>
      -- a site behind a character is escaped only by a backslash, which would have taken it along
      refine ih hahead.next (hread.char hahead fun inner rest hc hrest => hfree inner rest hrest hc) ?_
      rintro inner' rest' rfl body ⟨i, hi, hback⟩
      obtain rfl := Nat.succ.inj hi
      rw [hahead.getElem?_char] at hback
      exact hfree inner' rest' rfl (Option.some.inj hback)
  | case4 p a run inner rest next ih =>
      have hstop := width_site (hahead.sites inner List.mem_cons_self) p
      refine hread.tiles ⟨next, ?_, ih hahead.next (.refl fun m hm hlt => ?_) ?_⟩
      · refine ⟨Token.offset_ofMarker _ _, Nat.lt_add_of_pos_right (width_pos _), ?_, ?_, fun _ => ?_⟩
        · intro o content htext
          have hisText := Token.isText_ofMarker p (inner.drop 1)
          rw [htext] at hisText
          cases hisText
        · intro htext
          rw [Token.isText_ofMarker] at htext
          cases htext
        · exact ⟨_, hahead.mem_site, hclear inner rest rfl _, rfl, hstop.symm, Marker.means_iff.mpr rfl⟩
      · -- a marker that begins before the end of the site is read already, or is the site
        rcases Nat.lt_or_ge m.start p with hlt' | hge
        · rcases Nat.lt_or_ge a m.stop with hreach | hle
          · have hle := (hread.escaped m hm hlt' hreach).2.2
            exact Nat.le_trans hle (Nat.le_add_right _ _)
          · exact Nat.le_trans hle (Nat.le_trans hread.le (Nat.le_add_right _ _))
        · obtain ⟨inner', hsite, rfl⟩ := hahead.marker_of_lt hm hge hlt
          obtain rfl := Piece.site.inj hsite
          exact Nat.le_of_eq hstop.symm
      · rintro inner' rest' rfl
        exact hahead.not_escaped

/-- No two runs of text follow one another. -/
theorem apart_ofPieces (p a : Nat) (run : String) (ps : List Piece) :
    (Token.ofPieces p a run ps).IsChain fun t u => ¬ (t.isText = true ∧ u.isText = true) := by
  fun_induction Token.ofPieces p a run ps with
  | case1 p a run =>
      rw [Token.ofRun]
      split
      · exact .nil
      · exact .singleton _
  | case2 p a run inner rest ih => exact ih
  | case3 p a run c rest hfree ih => exact ih
  | case4 p a run inner rest next ih =>
      have hlater : (Token.ofMarker p (inner.drop 1) :: Token.ofPieces next next "" rest).IsChain
          fun t u => ¬ (t.isText = true ∧ u.isText = true) := by
        cases h : Token.ofPieces next next "" rest with
        | nil => exact .singleton _
        | cons u us =>
            rw [h] at ih
            exact .cons_cons (by simp) ih
      rw [Token.ofRun]
      split
      · exact hlater
      · exact .cons_cons (by simp) hlater

/-! ## The spans of tokens -/

/-- A **span**: a token and the stretch that belongs to it. -/
structure Span where
  /-- The token. -/
  token : Token
  /-- Where the stretch begins. -/
  start : Nat
  /-- Where it ends. -/
  stop : Nat

/-- **The spans of tokens**: from the offset of each to that of the next one, and from the last to the
end. -/
def spans (length : Nat) : List Token → List Span
  | [] => []
  | [t] => [⟨t, t.offset.toNat, length⟩]
  | t :: u :: ts => ⟨t, t.offset.toNat, u.offset.toNat⟩ :: spans length (u :: ts)

/-- A **tiling** of a source with certain markers by tokens. -/
structure Tiling (s : List Char) (ms : List Marker) (ts : List Token) : Prop where
  /-- The first token stands at the beginning. -/
  first : ∀ t ∈ ts.head?, t.offset = 0
  /-- The offsets increase strictly. -/
  increasing : (ts.map Token.offset).Pairwise (· < ·)
  /-- Every position of the source lies in exactly one span. -/
  cover : ∀ i < s.length, ∃! x : Span, x ∈ spans s.length ts ∧ x.start ≤ i ∧ i < x.stop
  /-- Every token covers its span. -/
  covers : ∀ x ∈ spans s.length ts, Covers s ms x.token x.start x.stop
  /-- Every marker that is not escaped is the span of the token that it means. -/
  markers : ∀ m ∈ ms, ¬ m.Escaped s →
    ∃ x ∈ spans s.length ts, x.start = m.start ∧ x.stop = m.stop ∧ m.Means x.token
  /-- No two runs of text follow one another. -/
  apart : ts.IsChain fun t u => ¬ (t.isText = true ∧ u.isText = true)

variable {t : Token} {ts : List Token}

/-- The first token stands where the tiling begins. -/
theorem Tiles.first (h : Tiles s ms a ts) : ∀ t ∈ ts.head?, t.offset = a := by
  intro t ht
  cases ts with
  | nil => cases ht
  | cons u ts =>
      obtain rfl := Option.some.inj ht
      obtain ⟨b, hcovers, -⟩ := h
      exact hcovers.offset

/-- The span of the first token. -/
theorem Tiles.spans_cons {b : Nat} (hcovers : Covers s ms t a b) (h : Tiles s ms b ts) :
    spans s.length (t :: ts) = ⟨t, a, b⟩ :: spans s.length ts := by
  cases ts with
  | nil =>
      obtain rfl : b = s.length := h
      rw [spans, spans, hcovers.offset]
      rfl
  | cons u ts =>
      rw [spans, hcovers.offset, h.first u rfl]
      rfl

/-- The spans lie in what is tiled, and each is covered by its token. -/
theorem Tiles.covers (h : Tiles s ms a ts) :
    ∀ x ∈ spans s.length ts, a ≤ x.start ∧ Covers s ms x.token x.start x.stop := by
  induction ts generalizing a with
  | nil => intro x hx; cases hx
  | cons t ts ih =>
      obtain ⟨b, hcovers, hts⟩ := h
      rw [hts.spans_cons hcovers]
      intro x hx
      rcases List.mem_cons.mp hx with rfl | hx
      · exact ⟨Nat.le_refl a, hcovers⟩
      · obtain ⟨hle, hx⟩ := ih hts x hx
        exact ⟨Nat.le_trans (Nat.le_of_lt hcovers.proper) hle, hx⟩

/-- The offsets increase strictly. -/
theorem Tiles.increasing (h : Tiles s ms a ts) :
    (∀ t ∈ ts, (a : Int) ≤ t.offset) ∧ (ts.map Token.offset).Pairwise (· < ·) := by
  induction ts generalizing a with
  | nil => exact ⟨fun t ht => (by cases ht), .nil⟩
  | cons t ts ih =>
      obtain ⟨b, hcovers, hts⟩ := h
      obtain ⟨hle, hpair⟩ := ih hts
      have hoffset := hcovers.offset
      have hproper := hcovers.proper
      refine ⟨fun u hu => ?_, List.pairwise_cons.mpr ⟨fun o ho => ?_, hpair⟩⟩
      · rcases List.mem_cons.mp hu with rfl | hu
        · exact Int.le_of_eq hoffset.symm
        · have := hle u hu
          omega
      · obtain ⟨u, hu, rfl⟩ := List.mem_map.mp ho
        have := hle u hu
        omega

/-- Every position that is tiled lies in exactly one span. -/
theorem Tiles.cover (h : Tiles s ms a ts) {i : Nat} (hi : a ≤ i) (hlt : i < s.length) :
    ∃! x : Span, x ∈ spans s.length ts ∧ x.start ≤ i ∧ i < x.stop := by
  induction ts generalizing a with
  | nil =>
      obtain rfl : a = s.length := h
      exact absurd hlt (Nat.not_lt.mpr hi)
  | cons t ts ih =>
      obtain ⟨b, hcovers, hts⟩ := h
      rw [hts.spans_cons hcovers]
      -- the spans behind the first begin where it ends
      rcases Nat.lt_or_ge i b with hib | hib
      · refine ⟨⟨t, a, b⟩, ⟨List.mem_cons_self, hi, hib⟩, ?_⟩
        rintro y ⟨hy, hyi, -⟩
        rcases List.mem_cons.mp hy with rfl | hy
        · rfl
        · have := (hts.covers y hy).1
          omega
      · obtain ⟨x, ⟨hx, hxi, hix⟩, hunique⟩ := ih hts hib
        refine ⟨x, ⟨List.mem_cons_of_mem _ hx, hxi, hix⟩, ?_⟩
        rintro y ⟨hy, hyi, hiy⟩
        rcases List.mem_cons.mp hy with rfl | hy
        · exact absurd hiy (Nat.not_lt.mpr hib)
        · exact hunique y ⟨hy, hyi, hiy⟩

/-- A marker begins in one of the spans. -/
theorem Tiles.exists_span (h : Tiles s ms 0 ts) {m : Marker} (hm : m.StandsIn s) :
    ∃ x ∈ spans s.length ts, x.start ≤ m.start ∧ m.start < x.stop := by
  have hlt : m.start < s.length := by
    rcases Nat.lt_or_ge m.start s.length with hlt | hge
    · exact hlt
    · exact absurd hm (not_standsIn_of_length_le hge)
  obtain ⟨x, ⟨hx, hstart, hstop⟩, -⟩ := h.cover (Nat.zero_le _) hlt
  exact ⟨x, hx, hstart, hstop⟩

/-- The token of a span that is no text is the marker that begins in it. -/
theorem Covers.eq_marker {a b : Nat} (h : Covers s ms t a b) (hms : Leftmost s 0 ms) {m : Marker}
    (hm : m ∈ ms) (hstart : a ≤ m.start) (hstop : m.start < b) (htext : t.isText = false) :
    ¬ m.Escaped s ∧ m.start = a ∧ m.stop = b ∧ m.Means t := by
  obtain ⟨n, hn, hfree, hnstart, hnstop, hmeans⟩ := h.marker htext
  obtain rfl := hms.eq_of_overlap hn hm (by omega) (by omega)
  exact ⟨hfree, hnstart, hnstop, hmeans⟩

/-- A marker that is not escaped is the span in which it begins. -/
theorem Tiles.marker (h : Tiles s ms 0 ts) (hms : Leftmost s 0 ms) {m : Marker} (hm : m ∈ ms)
    (hfree : ¬ m.Escaped s) :
    ∃ x ∈ spans s.length ts, x.start = m.start ∧ x.stop = m.stop ∧ m.Means x.token := by
  obtain ⟨x, hx, hstart, hstop⟩ := h.exists_span (hms.of_mem hm).2
  have hcovers := (h.covers x hx).2
  cases htext : x.token.isText with
  | true =>
      -- a text covers only markers that are escaped
      have hreach : x.start < m.stop := by
        rw [Marker.stop]
        omega
      exact absurd (hcovers.escaped htext m hm hstop hreach).1 hfree
  | false =>
      obtain ⟨-, hmstart, hmstop, hmeans⟩ := hcovers.eq_marker hms hm hstart hstop htext
      exact ⟨x, hx, hmstart.symm, hmstop.symm, hmeans⟩

/-- The tokens of a source tile it from its beginning on. -/
theorem Token.tiles_scan {source : String} {ms : List Marker} (hms : Leftmost source.toList 0 ms) :
    Tiles source.toList ms 0 (Token.scan source) := by
  have hpieces := leftmost_markersFrom source.toList 0
  rw [List.drop_zero] at hpieces
  obtain rfl := hms.unique hpieces
  -- no character stands before the source that could escape its first marker
  refine tiles_ofPieces (ahead_pieces source.toList)
    (.refl fun m _ hlt => absurd hlt (Nat.not_lt_zero _)) ?_
  rintro inner rest - body ⟨i, hi, -⟩
  cases hi

/-- **The tokens of a source tile it**: there is one choice of leftmost markers that do not overlap,
and with these markers the tokens are a tiling. -/
theorem Token.scan_tiles (source : String) :
    ∃ ms, (Leftmost source.toList 0 ms ∧ ∀ ns, Leftmost source.toList 0 ns → ns = ms) ∧
      Tiling source.toList ms (Token.scan source) := by
  have hms := leftmost_markersFrom source.toList 0
  rw [List.drop_zero] at hms
  have htiles := Token.tiles_scan hms
  exact ⟨_, ⟨hms, fun ns hns => hns.unique hms⟩, htiles.first, htiles.increasing.2,
    fun i hlt => htiles.cover (Nat.zero_le i) hlt, fun x hx => (htiles.covers x hx).2,
    fun m hm hfree => htiles.marker hms hm hfree, apart_ofPieces _ _ _ _⟩

end Stencil
