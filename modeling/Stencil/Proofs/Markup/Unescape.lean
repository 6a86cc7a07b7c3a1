import Stencil.Proofs.Tree.Outcome

/-! # Digits in tokens

Scanning a source makes no run of digits longer.

* `Unescapes` says that a text is another one without some of the backslashes before dollar signs;
  `Unescapes.isInfix` says that a run of digits in such a text stands in the other one, too.
* `Token.digitsFit_of_mem_scan` carries the bound on the runs of digits from a source over to its
  tokens. -/

namespace Stencil

open Markup Stencil.Tree

/-! ## Leaving out backslashes -/

/-- Whether a text is another one **without some of the backslashes** that stand before a dollar
sign. -/
inductive Unescapes : List Char → List Char → Prop
  | nil : Unescapes [] []
  | keep {s t : List Char} (c : Char) (rest : Unescapes s t) : Unescapes (c :: s) (c :: t)
  | drop {s t : List Char} (rest : Unescapes ('$' :: s) ('$' :: t)) :
      Unescapes ('\\' :: '$' :: s) ('$' :: t)

/-- No backslash need be left out. -/
theorem Unescapes.refl (s : List Char) : Unescapes s s := by
  induction s with
  | nil => exact .nil
  | cons c s ih => exact .keep c ih

/-- Backslashes are left out of two texts one after another. -/
theorem Unescapes.append {s t s' t' : List Char} (h : Unescapes s t) (h' : Unescapes s' t') :
    Unescapes (s ++ s') (t ++ t') := by
  induction h with
  | nil => exact h'
  | keep c _ ih => exact .keep c ih
  | drop _ ih => exact .drop ih

/-- Digits in front of a text without backslashes stand in front of the text. -/
theorem Unescapes.isPrefix {s t run : List Char} (h : Unescapes s t)
    (hdigits : ∀ c ∈ run, Text.isDecimalDigit c = true) (hrun : run <+: t) : run <+: s := by
  induction h generalizing run with
  | nil => exact hrun
  | keep c _ ih =>
      cases run with
      | nil => exact List.nil_prefix
      | cons d run =>
          obtain ⟨rfl, hlater⟩ := List.cons_prefix_cons.mp hrun
          have hlater := ih (fun e he => hdigits e (List.mem_cons_of_mem _ he)) hlater
          exact List.cons_prefix_cons.mpr ⟨rfl, hlater⟩
  | drop _ _ =>
      cases run with
      | nil => exact List.nil_prefix
      | cons d run =>
          -- the text begins with a dollar sign, which is no digit
          obtain ⟨rfl, -⟩ := List.cons_prefix_cons.mp hrun
          exact absurd (hdigits '$' List.mem_cons_self) (by decide)

/-- **No run of digits is joined** by leaving out backslashes: behind each stands a dollar sign. -/
theorem Unescapes.isInfix {s t run : List Char} (h : Unescapes s t)
    (hdigits : ∀ c ∈ run, Text.isDecimalDigit c = true) (hrun : run <:+: t) : run <:+: s := by
  induction h with
  | nil => exact hrun
  | @keep s t c rest ih =>
      rcases List.infix_cons_iff.mp hrun with hfront | hlater
      · exact (Unescapes.isPrefix (.keep c rest) hdigits hfront).isInfix
      · exact (ih hlater).trans (List.suffix_cons _ _).isInfix
  | drop _ ih => exact (ih hrun).trans (List.suffix_cons _ _).isInfix

/-- The bound on the runs of digits carries over to a text without backslashes. -/
theorem DigitRunsFit.of_unescapes {s t : List Char} (hfit : DigitRunsFit s) (h : Unescapes s t) :
    DigitRunsFit t :=
  fun run hrun hdigits => hfit run (h.isInfix hdigits hrun) hdigits

/-! ## The tokens of a source -/

namespace Token

/-- The arguments of a marker are a part of its body. -/
theorem digitsFit_ofMarker {body : List Char} (hfit : DigitRunsFit body) (offset : Int) :
    DigitsFit (ofMarker offset body) := by
  have hrest : (Text.firstWord body).2 <:+ body :=
    (List.dropWhile_suffix _).trans (trimLeft_suffix body)
  simp only [ofMarker]
  split
  · trivial
  · rw [DigitsFit, String.toList_ofList]
    exact hfit.of_isInfix ((trim_isInfix _).trans hrest.isInfix)

variable {s before : List Char} {run : String}

/-- A run of text keeps to the bound of the text that it is read from. -/
theorem digitsFit_of_mem_ofRun (hfit : DigitRunsFit s) (hs : before <:+: s)
    (hrun : Unescapes before run.toList) (offset : Nat) : ∀ t ∈ ofRun offset run, DigitsFit t := by
  intro t ht
  rw [ofRun] at ht
  split at ht
  · cases ht
  · obtain rfl := List.mem_singleton.mp ht
    exact (hfit.of_isInfix hs).of_unescapes hrun

/-- **The tokens of pieces** at the end of a text keep to its bound. The run of text before the pieces
is what stands there, without backslashes. -/
theorem digitsFit_of_mem_ofPieces {position start : Nat} {ps : List Piece} (hfit : DigitRunsFit s)
    (h : ∃ before, before ++ ps.flatMap Piece.text <:+ s ∧ Unescapes before run.toList) :
    ∀ t ∈ ofPieces position start run ps, DigitsFit t := by
  fun_induction ofPieces position start run ps with
  | case1 position start run =>
      obtain ⟨before, hs, hrun⟩ := h
      have hbefore : before <:+: s := (List.prefix_append _ _).isInfix.trans hs.isInfix
      exact digitsFit_of_mem_ofRun hfit hbefore hrun start
  | case2 position start run inner rest ih =>
      -- an escaped marker joins the run without its backslash
      obtain ⟨before, hs, hrun⟩ := h
      have hescape : Unescapes ('\\' :: Piece.siteText inner) (Piece.siteText inner) := .drop (.refl _)
      refine ih ⟨before ++ '\\' :: Piece.siteText inner, ?_, ?_⟩
      · simpa using hs
      · simpa using hrun.append hescape
  | case3 position start run c rest hfree ih =>
      obtain ⟨before, hs, hrun⟩ := h
      refine ih ⟨before ++ [c], ?_, ?_⟩
      · simpa using hs
      · simpa using hrun.append (.refl [c])
  | case4 position start run inner rest next ih =>
      obtain ⟨before, hs, hrun⟩ := h
      have hbefore : before <:+: s := (List.prefix_append _ _).isInfix.trans hs.isInfix
      have hsite : Piece.siteText inner ++ rest.flatMap Piece.text <:+ s :=
        (List.suffix_append _ _).trans hs
      have hinner : inner.drop 1 <:+: Piece.siteText inner :=
        (List.drop_suffix 1 inner).isInfix.trans ⟨['$', '\x7b'], ['\x7d'], rfl⟩
      have hbody : inner.drop 1 <:+: s :=
        hinner.trans ((List.prefix_append _ _).isInfix.trans hsite.isInfix)
      intro t ht
      rcases List.mem_append.mp ht with hrunTokens | hmarker
      · exact digitsFit_of_mem_ofRun hfit hbefore hrun start t hrunTokens
      · rcases List.mem_cons.mp hmarker with rfl | hlater
        · exact digitsFit_ofMarker (hfit.of_isInfix hbody) _
        · -- behind the marker a new run of text begins
          exact ih ⟨[], (List.suffix_append _ _).trans hsite, .nil⟩ t hlater

/-- **The tokens of a source** keep to the bound on its runs of digits. -/
theorem digitsFit_of_mem_scan {source : String} (hfit : DigitRunsFit source.toList) :
    ∀ t ∈ scan source, DigitsFit t := by
  refine digitsFit_of_mem_ofPieces hfit ⟨[], ?_, .nil⟩
  rw [List.nil_append, flatMap_text_pieces]

end Token

end Stencil
