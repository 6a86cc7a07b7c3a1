import Stencil.Markup.Token
import Stencil.Proofs.Text.Blank

/-! # Markers in a source

The markers of a source, told by positions alone.

* `Marker.StandsIn` says where a marker stands, and `Leftmost` picks the leftmost markers that do not
  overlap; `Leftmost.unique` says that there is one such choice.
* `leftmost_markersFrom` finds them among the pieces that a source is cut into.
* `Marker.Means` says which token a marker means; `Marker.means_iff` says that it is the token that
  scanning gives for it, and no other. -/

namespace Stencil

/-- A **marker**: its position in a source, and what stands between its number sign and its closing
brace. -/
structure Marker where
  /-- The position of the dollar sign. -/
  start : Nat
  /-- What follows the number sign. -/
  body : List Char
  deriving DecidableEq, Repr

namespace Marker

/-- The position after a marker. -/
def stop (m : Marker) : Nat := m.start + m.body.length + 4

/-- Whether a marker **stands in a source**: a dollar sign, an opening brace and a number sign, and
then everything up to the first closing brace. -/
def StandsIn (m : Marker) (s : List Char) : Prop :=
  '\x7d' ∉ m.body ∧
    ∃ after, s.drop m.start = '$' :: '\x7b' :: '#' :: (m.body ++ '\x7d' :: after)

/-- Whether a marker is **escaped**: a backslash stands directly before it. -/
def Escaped (m : Marker) (s : List Char) : Prop := ∃ i, m.start = i + 1 ∧ s[i]? = some '\\'

end Marker

/-- **The leftmost markers that do not overlap**, from a position on: there is none, or the first one
that begins at the position or behind it, and then those from its end on. -/
inductive Leftmost (s : List Char) : Nat → List Marker → Prop
  | done {a : Nat} (none : ∀ m : Marker, a ≤ m.start → ¬ m.StandsIn s) : Leftmost s a []
  | next {a : Nat} {m : Marker} {later : List Marker} (ahead : a ≤ m.start) (stands : m.StandsIn s)
      (first : ∀ n : Marker, a ≤ n.start → n.start < m.start → ¬ n.StandsIn s)
      (rest : Leftmost s m.stop later) : Leftmost s a (m :: later)

namespace Marker

/-- At one position stands at most one marker. -/
theorem eq_of_standsIn {s : List Char} {m n : Marker} (hm : m.StandsIn s) (hn : n.StandsIn s)
    (h : m.start = n.start) : m = n := by
  obtain ⟨i, body⟩ := m
  obtain ⟨j, body'⟩ := n
  obtain ⟨hbody, after, hdrop⟩ := hm
  obtain ⟨hbody', after', hdrop'⟩ := hn
  obtain rfl : i = j := h
  rw [hdrop] at hdrop'
  simp only [List.cons.injEq, true_and] at hdrop'
  have hcut := Text.cut?_append_cons hbody after
  rw [hdrop', Text.cut?_append_cons hbody'] at hcut
  obtain ⟨rfl, -⟩ := Prod.mk.inj (Option.some.inj hcut)
  rfl

end Marker

/-- There is one choice of leftmost markers. -/
theorem Leftmost.unique {s : List Char} {a : Nat} {ms ns : List Marker} (hm : Leftmost s a ms)
    (hn : Leftmost s a ns) : ms = ns := by
  induction hm generalizing ns with
  | done none =>
      cases hn with
      | done => rfl
      | next ahead stands => exact absurd stands (none _ ahead)
  | @next a m later ahead stands first _ ih =>
      cases hn with
      | done none => exact absurd stands (none _ ahead)
      | @next _ n later' ahead' stands' first' rest' =>
          -- of two different starts the earlier would be skipped by the other choice
          have hstart : m.start = n.start := by
            rcases Nat.lt_trichotomy m.start n.start with hlt | heq | hlt
            · exact absurd stands (first' m ahead hlt)
            · exact heq
            · exact absurd stands' (first n ahead' hlt)
          obtain rfl := Marker.eq_of_standsIn stands stands' hstart
          rw [ih rest']

/-- Leftmost markers begin at the position they are sought from, or behind it, and stand in the
source. -/
theorem Leftmost.of_mem {s : List Char} {a : Nat} {ms : List Marker} (h : Leftmost s a ms)
    {m : Marker} (hm : m ∈ ms) : a ≤ m.start ∧ m.StandsIn s := by
  induction h with
  | done => cases hm
  | @next a n later ahead stands _ _ ih =>
      rcases List.mem_cons.mp hm with rfl | hlater
      · exact ⟨ahead, stands⟩
      · obtain ⟨hle, hstands⟩ := ih hlater
        refine ⟨?_, hstands⟩
        rw [Marker.stop] at hle
        omega

/-- Leftmost markers do not overlap. -/
theorem Leftmost.eq_of_overlap {s : List Char} {a : Nat} {ms : List Marker} (h : Leftmost s a ms)
    {m n : Marker} (hm : m ∈ ms) (hn : n ∈ ms) (hle : m.start ≤ n.start) (hlt : n.start < m.stop) :
    m = n := by
  induction h with
  | done => cases hm
  | @next a k later ahead _ _ rest ih =>
      rcases List.mem_cons.mp hm with rfl | hm'
      · rcases List.mem_cons.mp hn with rfl | hn'
        · rfl
        · exact absurd hlt (Nat.not_lt.mpr (rest.of_mem hn').1)
      · rcases List.mem_cons.mp hn with rfl | hn'
        · have hstop := (rest.of_mem hm').1
          rw [Marker.stop] at hstop
          omega
        · exact ih hm' hn'

/-- A position without a marker can be passed over. -/
theorem Leftmost.pass {s : List Char} {a : Nat} {ms : List Marker} (h : Leftmost s (a + 1) ms)
    (hnone : ∀ m : Marker, m.start = a → ¬ m.StandsIn s) : Leftmost s a ms := by
  cases h with
  | done none =>
      refine .done fun m hm => ?_
      rcases Nat.lt_or_ge a m.start with hlt | hge
      · exact none m hlt
      · exact hnone m (Nat.le_antisymm hge hm)
  | next ahead stands first rest =>
      refine .next (by omega) stands (fun n hn hlt => ?_) rest
      rcases Nat.lt_or_ge a n.start with hlt' | hge
      · exact first n hlt' hlt
      · exact hnone n (Nat.le_antisymm hge hn)

/-! ## Markers among pieces -/

namespace Markup

/-- The markers of a row of pieces, the first of which stands at a position. -/
def markersFrom (position : Nat) : List Piece → List Marker
  | [] => []
  | .char _ :: rest => markersFrom (position + 1) rest
  | .site inner :: rest =>
      ⟨position, inner.drop 1⟩ :: markersFrom (position + (Piece.site inner).width) rest

/-- Markers of pieces begin where the pieces do, or later. -/
theorem le_start_of_mem_markersFrom {p : Nat} {ps : List Piece} {m : Marker}
    (h : m ∈ markersFrom p ps) : p ≤ m.start := by
  induction ps generalizing p with
  | nil => cases h
  | cons q qs ih =>
      cases q with
      | char c => exact Nat.le_trans (Nat.le_succ p) (ih h)
      | site inner =>
          rcases List.mem_cons.mp h with rfl | h
          · exact Nat.le_refl _
          · exact Nat.le_trans (Nat.le_add_right _ _) (ih h)

/-- A site that is a marker is as wide as the marker. -/
theorem width_site {inner : List Char} (h : inner.head? = some '#') (p : Nat) :
    p + (Piece.site inner).width = (Marker.mk p (inner.drop 1)).stop := by
  cases inner with
  | nil => cases h
  | cons c body => simp [Piece.width, Piece.siteText, Marker.stop]; omega

/-- Behind the end of a source stands no marker. -/
theorem not_standsIn_of_length_le {s : List Char} {m : Marker} (h : s.length ≤ m.start) :
    ¬ m.StandsIn s := by
  rintro ⟨-, after, hdrop⟩
  rw [List.drop_eq_nil_of_le h] at hdrop
  cases hdrop

/-- A site that is a marker begins with its number sign. -/
theorem head?_of_opensMarker {inner after : List Char}
    (h : opensMarker (inner ++ '\x7d' :: after) = true) : inner.head? = some '#' := by
  cases inner with
  | nil => simp [opensMarker] at h
  | cons c body => simpa [opensMarker] using h

/-- **The pieces of a source hold its leftmost markers.** The pieces are cut from what stands at a
position on; a character that is no site begins no marker, and so is passed over. -/
theorem leftmost_markersFrom (s : List Char) (p : Nat) :
    Leftmost s p (markersFrom p (pieces opensMarker (s.drop p))) := by
  generalize ht : s.drop p = t
  fun_induction pieces opensMarker t generalizing p with
  | case1 =>
      have hp := List.drop_eq_nil_iff.mp ht
      exact .done fun m hm => not_standsIn_of_length_le (Nat.le_trans hp hm)
  | case2 c =>
      refine .pass (.done fun m hm => not_standsIn_of_length_le ?_) fun m hm hstands => ?_
      · have := congrArg List.length ht
        simp only [List.length_drop, List.length_singleton] at this
        omega
      · obtain ⟨-, after, hdrop⟩ := hstands
        rw [hm, ht] at hdrop
        simp at hdrop
  | case3 c d rest hc inner after hcut ih =>
      obtain ⟨rfl, rfl, hopens⟩ := hc
      obtain ⟨rfl, hinner⟩ := Text.eq_of_cut? hcut
      have hhead := head?_of_opensMarker hopens
      have hstop := width_site hhead p
      obtain ⟨body, rfl⟩ := List.head?_eq_some_iff.mp hhead
      rw [markersFrom, hstop]
      -- the site begins right here, so that no marker begins before it
      refine .next (Nat.le_refl p) ⟨fun hmem => hinner (List.mem_cons_of_mem _ hmem), after, ht⟩
        (fun n hn hlt => absurd hlt (Nat.not_lt.mpr hn)) (ih _ ?_)
      rw [← hstop, ← List.drop_drop, ht]
      simp [Piece.width, Piece.siteText]
  | case4 c d rest hc hcut ih =>
      refine .pass (ih (p + 1) ?_) fun m hm hstands => ?_
      · rw [← List.drop_drop, ht]
        rfl
      · obtain ⟨-, after, hdrop⟩ := hstands
        rw [hm, ht] at hdrop
        -- the marker would end at a closing brace, but there is none
        obtain ⟨-, -, rfl⟩ := hdrop
        exact Text.cut?_eq_none_iff.mp hcut (by simp)
  | case5 c d rest hc ih =>
      refine .pass (ih (p + 1) ?_) fun m hm hstands => hc ?_
      · rw [← List.drop_drop, ht]
        rfl
      · obtain ⟨-, after, hdrop⟩ := hstands
        rw [hm, ht] at hdrop
        obtain ⟨rfl, rfl, rfl⟩ := hdrop
        exact ⟨rfl, rfl, rfl⟩

end Markup

/-! ## The meaning of a marker -/

namespace Marker

/-- Whether the body of a marker **consists of a name and arguments**: the name is a word, the
arguments are bare, and around them there are only blanks, at least one of them between the two. -/
def Says (m : Marker) (name arguments : List Char) : Prop :=
  ∃ lead gap tail, Text.AllBlank lead ∧ Text.AllBlank gap ∧ Text.AllBlank tail ∧
    (∀ c ∈ name, Text.isBlank c = false) ∧ Text.Bare arguments ∧
    (arguments ≠ [] → name ≠ [] ∧ gap ≠ []) ∧ m.body = lead ++ name ++ gap ++ arguments ++ tail

/-- Whether a marker **means a token**, which stands where the marker does: the name `end` closes the
directive that the arguments name, and any other name opens its own. -/
def Means (m : Marker) (t : Token) : Prop :=
  ∃ name arguments, m.Says name arguments ∧
    t = if name = ['e', 'n', 'd'] then .closing m.start (String.ofList arguments)
      else .opening m.start (String.ofList name) (String.ofList arguments)

/-- A text between blanks begins with a blank, unless it is not separated from what stands before. -/
theorem head?_blank {gap arguments tail : List Char} (hgap : Text.AllBlank gap)
    (htail : Text.AllBlank tail) (hsep : arguments ≠ [] → gap ≠ []) :
    ∀ c ∈ (gap ++ arguments ++ tail).head?, Text.isBlank c = true := by
  intro c hc
  cases gap with
  | nil =>
      have hnil : arguments = [] := Classical.not_not.mp fun hargs => hsep hargs rfl
      rw [hnil] at hc
      exact htail c (List.mem_of_mem_head? hc)
  | cons d gap =>
      obtain rfl := Option.some.inj hc
      exact hgap d List.mem_cons_self

/-- The body of a marker, split at its first word. -/
theorem firstWord_of_says {m : Marker} {name arguments : List Char} (h : m.Says name arguments) :
    ∃ rest, Text.firstWord m.body = (name, rest) ∧ Text.trim rest = arguments := by
  obtain ⟨lead, gap, tail, hlead, hgap, htail, hname, hbare, hsep, hbody⟩ := h
  by_cases hnil : name = []
  · have hargs : arguments = [] := Classical.not_not.mp fun hargs => (hsep hargs).1 hnil
    subst hnil hargs
    refine ⟨[], ?_, rfl⟩
    -- there are only blanks, and all of them stand before the empty word
    have hall : Text.AllBlank m.body := by
      rw [hbody]
      intro c hc
      simp only [List.append_nil, List.mem_append] at hc
      rcases hc with (hc | hc) | hc
      · exact hlead c hc
      · exact hgap c hc
      · exact htail c hc
    have hword := Text.firstWord_append hall hname (by simp) fun _ => rfl
    rw [List.append_nil, List.append_nil] at hword
    exact hword
  · refine ⟨gap ++ arguments ++ tail, ?_, Text.trim_append hgap hbare htail⟩
    have hhead := head?_blank hgap htail fun hargs => (hsep hargs).2
    have hword := Text.firstWord_append hlead hname hhead fun h => absurd h hnil
    rw [hbody, ← hword]
    simp only [List.append_assoc]

/-- **A marker means the token that scanning gives for it**, and no other. -/
theorem means_iff {m : Marker} {t : Token} : m.Means t ↔ t = Token.ofMarker m.start m.body := by
  constructor
  · rintro ⟨name, arguments, hsays, rfl⟩
    obtain ⟨rest, hword, htrim⟩ := firstWord_of_says hsays
    simp only [Token.ofMarker, hword, htrim]
    rfl
  · rintro rfl
    -- the first word and what trimming leaves of the rest are the name and the arguments
    obtain ⟨lead, name, rest, hlead, hname, hrest, hempty, hbody⟩ := Text.exists_firstWord m.body
    obtain ⟨gap, tail, hgap, htail, hbare, hsplit⟩ := Text.exists_trim rest
    have hword : Text.firstWord m.body = (name, rest) := by
      rw [hbody]
      exact Text.firstWord_append hlead hname hrest hempty
    refine ⟨name, Text.trim rest, ⟨lead, gap, tail, hlead, hgap, htail, hname, hbare, ?_, ?_⟩, ?_⟩
    · intro hargs
      constructor
      · rintro hnil
        rw [hempty hnil] at hargs
        exact hargs rfl
      · rintro rfl
        -- otherwise the rest would begin with the arguments, which are bare, and with a blank
        obtain ⟨c, arguments, hcons⟩ := List.exists_cons_of_ne_nil hargs
        have hbegins : rest.head? = some c := by rw [hsplit, hcons]; rfl
        have hc := hbare.head c (by rw [hcons]; rfl)
        rw [hrest c hbegins] at hc
        cases hc
    · rw [hbody]
      simp only [List.append_assoc] at hsplit ⊢
      rw [← hsplit]
    · simp only [Token.ofMarker, hword]
      rfl

end Marker

end Stencil
