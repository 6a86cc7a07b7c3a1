import Mathlib.Data.List.Chain
import Stencil.Proofs.Markup.Escape
import Stencil.Proofs.Text.DigitRun

/-! # Placeholders are the sites of a text

What is scanned of a text is its sites, as far as they are placeholders, and the text between them.

* `Markup.Site` is a site with all the text before it, and `Site.placeholder?` the placeholder that it is,
  unless a backslash stands before it or its inside is no path.
* `Markup.unescaped` is the text without the backslashes that stand before sites.
* `Segment.Exact` says what segments have to do with the pieces they are scanned from; `exact_ofPieces`
  carries it from the end of a text to its beginning.
* `Segment.scan_exact` is the result for whole texts. -/

namespace Stencil

open Markup

/-! ## Sites and what stands before them -/

namespace Markup

/-- A **site** in a text. -/
structure Site where
  /-- All the text before it. -/
  before : List Char
  /-- What stands between its braces. -/
  inner : List Char
  deriving DecidableEq, Repr

/-- The sites of a row of pieces that stand behind a text. -/
def sitesFrom (before : List Char) : List Piece → List Site
  | [] => []
  | .char c :: rest => sitesFrom (before ++ [c]) rest
  | .site inner :: rest => ⟨before, inner⟩ :: sitesFrom (before ++ Piece.siteText inner) rest

/-- A site is **escaped** if a backslash stands directly before it. -/
def Site.Escaped (w : Site) : Prop := w.before.getLast? = some '\\'

instance (w : Site) : Decidable w.Escaped := inferInstanceAs (Decidable (_ = _))

/-- The **placeholder** that a site is, with the path that is read off its inside. -/
def Site.placeholder? (w : Site) : Option Segment :=
  if w.Escaped then none
  else
    match Path.parse (String.ofList w.inner) with
    | .ok path => some (.placeholder path (String.ofList (Piece.siteText w.inner)))
    | .error _ => none

/-- A site behind no backslash is a placeholder if its inside is a path. -/
theorem Site.placeholder?_of_parse {before inner : List Char} (hfree : before.getLast? ≠ some '\\') :
    Site.placeholder? ⟨before, inner⟩ =
      match Path.parse (String.ofList inner) with
      | .ok path => some (.placeholder path (String.ofList (Piece.siteText inner)))
      | .error _ => none :=
  if_neg hfree

/-- The text of a row of pieces **without the backslash directly before each site** that has one. -/
def unescaped : List Piece → List Char
  | [] => []
  | .char '\\' :: .site inner :: rest => Piece.siteText inner ++ unescaped rest
  | p :: rest => p.text ++ unescaped rest

/-- A character that is no backslash before a site stays. -/
theorem unescaped_char {c : Char} {ps : List Piece}
    (h : ∀ inner rest, ps = .site inner :: rest → c = '\\' → False) :
    unescaped (.char c :: ps) = c :: unescaped ps := by
  rw [unescaped]
  · rfl
  · rintro inner rest hc rfl
    exact h inner rest rfl (Piece.char.inj hc)

/-- A text that does not end with a backslash before a site leaves all of what follows **free**. -/
def Free (before : List Char) (ps : List Piece) : Prop :=
  ∀ inner rest, ps = .site inner :: rest → before.getLast? ≠ some '\\'

/-- Behind a character the pieces are free, unless it is a backslash before a site. -/
theorem free_char {c : Char} {ps : List Piece}
    (h : ∀ inner rest, ps = .site inner :: rest → c = '\\' → False) (before : List Char) :
    Free (before ++ [c]) ps := by
  intro inner rest hps hlast
  rw [List.getLast?_concat] at hlast
  exact h inner rest hps (Option.some.inj hlast)

/-- Behind a site the pieces are free: it ends with a brace. -/
theorem free_site (before inner : List Char) (ps : List Piece) :
    Free (before ++ Piece.siteText inner) ps := by
  intro _ _ _ hlast
  have hbrace : before ++ Piece.siteText inner = (before ++ '$' :: '\x7b' :: inner) ++ ['\x7d'] := by
    simp [Piece.siteText]
  rw [hbrace, List.getLast?_concat] at hlast
  cases hlast

end Markup

/-! ## Segments and the pieces they are scanned from -/

namespace Segment

/-- The text of a segment. -/
def text : Segment → List Char
  | .literal s => s.toList
  | .placeholder _ raw => raw.toList

/-- Whether a segment is a literal run. -/
def isLiteral : Segment → Bool
  | .literal _ => true
  | .placeholder _ _ => false

/-- What segments have to do with the pieces they are scanned from, which stand behind a text, and with
the literal run that is open there. -/
structure Exact (before : List Char) (run : String) (ps : List Piece) (segments : List Segment) :
    Prop where
  /-- The placeholders are those sites that are one, in their order. -/
  placeholders : segments.filter (!·.isLiteral) = (sitesFrom before ps).filterMap Site.placeholder?
  /-- Put together, the segments are the text without the backslashes that escape sites. -/
  content : segments.flatMap text = run.toList ++ unescaped ps
  /-- No literal run is empty. -/
  proper : ∀ s, .literal s ∈ segments → s ≠ ""
  /-- No two literal runs stand side by side. -/
  apart : segments.IsChain fun s t => ¬(s.isLiteral = true ∧ t.isLiteral = true)

/-- At the end of a text there is what is left of the run. -/
theorem exact_nil (before : List Char) (run : String) : Exact before run [] (ofRun run) := by
  unfold ofRun
  split
  · rename_i hempty
    obtain rfl := String.isEmpty_iff.mp hempty
    exact ⟨rfl, rfl, fun s hs => absurd hs List.not_mem_nil, .nil⟩
  · rename_i hne
    refine ⟨rfl, by simp [text, unescaped], fun s hs => ?_, .singleton _⟩
    obtain rfl : s = run := by simpa using hs
    exact fun hempty => hne (String.isEmpty_iff.mpr hempty)

variable {before : List Char} {run : String} {ps : List Piece} {segments : List Segment}

/-- A placeholder ends the run before it, and begins another one. -/
theorem Exact.placeholder {inner : List Char} {path : Path} (hfree : before.getLast? ≠ some '\\')
    (hpath : Path.parse (String.ofList inner) = .ok path)
    (h : Exact (before ++ Piece.siteText inner) "" ps segments) :
    Exact before run (.site inner :: ps)
      (ofRun run ++ .placeholder path (String.ofList (Piece.siteText inner)) :: segments) := by
  have hrun := exact_nil before run
  have hsite : Site.placeholder? ⟨before, inner⟩ =
      some (.placeholder path (String.ofList (Piece.siteText inner))) := by
    rw [Site.placeholder?_of_parse hfree, hpath]
  constructor
  · rw [List.filter_append, hrun.placeholders, sitesFrom, sitesFrom, List.filterMap_cons, hsite]
    simpa [isLiteral] using h.placeholders
  · rw [List.flatMap_append, hrun.content, List.flatMap_cons, h.content]
    simp [text, unescaped]
  · intro s hs
    rcases List.mem_append.mp hs with hs | hs
    · exact hrun.proper s hs
    · rcases List.mem_cons.mp hs with hs | hs
      · cases hs
      · exact h.proper s hs
  · refine List.isChain_append.mpr ⟨hrun.apart, ?_, fun s _ t ht hboth => ?_⟩
    · refine List.isChain_cons.mpr ⟨fun t _ hboth => ?_, h.apart⟩
      exact Bool.false_ne_true hboth.1
    · cases ht
      exact Bool.false_ne_true hboth.2

/-- **What is scanned of a row of pieces is exact**, when they are free. A backslash that escapes a site is
passed together with the site, so that what follows is free again. -/
theorem exact_ofPieces (hfree : Free before ps) (h : ofPieces run ps = .ok segments) :
    Exact before run ps segments := by
  fun_induction ofPieces run ps generalizing before segments with
  | case1 run =>
      cases h
      exact exact_nil before run
  | case2 run inner rest ih =>
      have hlater := ih (free_site (before ++ ['\\']) inner rest) h
      have hescaped : Site.placeholder? ⟨before ++ ['\\'], inner⟩ = none :=
        if_pos List.getLast?_concat
      refine ⟨?_, ?_, hlater.proper, hlater.apart⟩
      · rw [hlater.placeholders, sitesFrom, sitesFrom, List.filterMap_cons, hescaped]
      · rw [hlater.content]
        simp [unescaped]
  | case3 run c rest hplain ih =>
      have hlater := ih (free_char hplain before) h
      refine ⟨hlater.placeholders, ?_, hlater.proper, hlater.apart⟩
      rw [hlater.content, unescaped_char hplain]
      simp
  | case4 run inner rest raw path hpath =>
      rename_i ih
      obtain ⟨later, hlater, he⟩ := bind_eq_ok_iff.mp h
      cases he
      exact (ih (free_site before inner rest) hlater).placeholder (hfree inner rest rfl) hpath
  | case5 run inner rest raw text fault hpath =>
      rename_i ih
      have hlater := ih (free_site before inner rest) h
      have hfault : Site.placeholder? ⟨before, inner⟩ = none := by
        rw [Site.placeholder?_of_parse (hfree inner rest rfl), hpath]
      refine ⟨?_, ?_, hlater.proper, hlater.apart⟩
      · rw [hlater.placeholders, sitesFrom, List.filterMap_cons, hfault]
      · rw [hlater.content]
        simp [unescaped, raw]
  | case6 => cases h

/-- A row of pieces without indexes of too many digits is scanned. -/
theorem exists_segments (run : String) {ps : List Piece}
    (hfit : ∀ inner, .site inner ∈ ps → Path.IndexesFit (Text.trim inner)) :
    ∃ segments, ofPieces run ps = .ok segments := by
  cases h : ofPieces run ps with
  | ok segments => exact ⟨segments, rfl⟩
  | error l =>
      obtain ⟨inner, hmem, hlimit⟩ := exists_site_of_eq_error h
      have hindexes : Path.IndexesFit (Text.trim (String.ofList inner).toList) := by
        rw [String.toList_ofList]
        exact hfit inner hmem
      rcases Path.exists_phrase_or_fault hindexes with ⟨p, -, hread⟩ | ⟨fault, hread⟩
      · rw [hread] at hlimit
        cases hlimit
      · rw [hread] at hlimit
        cases hlimit

/-- **Scanning a text is exact and loses nothing.** A text without indexes of too many digits is cut at its
leftmost sites in one way. The placeholders that are scanned are those of its sites that no backslash stands
before and that hold a path, in their order; all segments together are the text without the backslashes
before sites; and its literal runs are not empty and do not stand side by side. -/
theorem scan_exact {source : String} (hfit : ∀ inner,
    .site inner ∈ pieces opensPlaceholder source.toList → Path.IndexesFit (Text.trim inner)) :
    ∃ ps segments, (∀ qs, Cut opensPlaceholder source.toList qs ↔ qs = ps) ∧
      scan source = .ok segments ∧
      segments.filter (!·.isLiteral) = (sitesFrom [] ps).filterMap Site.placeholder? ∧
      segments.flatMap text = unescaped ps ∧
      (∀ s, .literal s ∈ segments → s ≠ "") ∧
      segments.IsChain fun s t => ¬(s.isLiteral = true ∧ t.isLiteral = true) := by
  obtain ⟨segments, hscan⟩ := exists_segments "" hfit
  have hfree : Free [] (pieces opensPlaceholder source.toList) := fun _ _ _ => by simp
  have hexact := exact_ofPieces hfree hscan
  exact ⟨_, segments, fun _ => cut_iff, hscan, hexact.placeholders, hexact.content, hexact.proper,
    hexact.apart⟩

/-- A text with a placeholder, an escaped one, one without a path, an indexed one, and a marker. -/
def mixed : String := "$\x7ba\x7d\\$\x7bb\x7d$\x7b.\x7d$\x7bc[0]\x7d$\x7b#d\x7de$"

theorem scan_exact_mixed :
    (∀ inner, .site inner ∈ pieces opensPlaceholder mixed.toList →
      Path.IndexesFit (Text.trim inner)) ∧
    scan mixed = .ok [.placeholder ⟨"a", [.name "a"]⟩ "$\x7ba\x7d", .literal "$\x7bb\x7d$\x7b.\x7d",
      .placeholder ⟨"c[0]", [.name "c", .index 0]⟩ "$\x7bc[0]\x7d", .literal "$\x7b#d\x7de$"] ∧
    ∃ ps, Cut opensPlaceholder mixed.toList ps ∧
      (sitesFrom [] ps).filterMap Site.placeholder? =
        [.placeholder ⟨"a", [.name "a"]⟩ "$\x7ba\x7d",
          .placeholder ⟨"c[0]", [.name "c", .index 0]⟩ "$\x7bc[0]\x7d"] ∧
      unescaped ps = "$\x7ba\x7d$\x7bb\x7d$\x7b.\x7d$\x7bc[0]\x7d$\x7b#d\x7de$".toList := by
  have hshort : mixed.toList.length ≤ Limit.digits := by decide +kernel
  have hfit : ∀ inner, .site inner ∈ pieces opensPlaceholder mixed.toList →
      Path.IndexesFit (Text.trim inner) := fun inner h =>
    Path.indexesFit_of_length_le
      ((trim_isInfix inner).length_le.trans ((isInfix_of_mem_pieces h).length_le.trans hshort))
  have hread : scan mixed = .ok [.placeholder ⟨"a", [.name "a"]⟩ "$\x7ba\x7d",
      .literal "$\x7bb\x7d$\x7b.\x7d", .placeholder ⟨"c[0]", [.name "c", .index 0]⟩ "$\x7bc[0]\x7d",
      .literal "$\x7b#d\x7de$"] := by decide +kernel
  obtain ⟨ps, segments, hcut, hscan, hplaceholders, hcontent, -⟩ := scan_exact hfit
  rw [hread] at hscan
  cases hscan
  refine ⟨hfit, hread, ps, (hcut ps).mpr rfl, hplaceholders.symm, ?_⟩
  rw [← hcontent]
  decide +kernel

end Segment

end Stencil
