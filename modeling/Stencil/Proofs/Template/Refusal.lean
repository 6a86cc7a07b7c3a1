import Stencil.Proofs.Markup.Tiling
import Stencil.Proofs.Markup.Unescape
import Stencil.Proofs.Tree.Depth
import Stencil.Template

/-! # Refused sources

What compiling says about a source that is no template.

* `Marker.Concerns` says which reports there can be about a marker, and that each gives the marker's
  offset and what its body says.
* `Tiles.exists_marker`: behind every token that is no text there is a marker that is not escaped.
* `Template.compile_ok_or_concerns`: a source is compiled, or is refused with a report about one of its
  markers. -/

namespace Stencil

/-! ## Reports about a marker -/

/-- Whether a report **concerns a marker**: it points at its dollar sign, and repeats what its body
says. The directives `if` and `each` can be left open, or be nested too deep. -/
inductive Marker.Concerns (m : Marker) : CompileError → Prop
  | invalid {name arguments : String} (fault : DirectiveFault)
      (written : m.Says name.toList arguments.toList) :
      m.Concerns (.invalidDirective name arguments fault (some m.start))
  | mismatch (expected : String) {found : String} (written : m.Says ['e', 'n', 'd'] found.toList) :
      m.Concerns (.mismatchedClose expected found (some m.start))
  | unclosed {name : String} {arguments : List Char} (known : name = "if" ∨ name = "each")
      (written : m.Says name.toList arguments) : m.Concerns (.unclosed name (some m.start))
  | tooDeep (depth : Int) {name : String} {arguments : List Char}
      (known : name = "if" ∨ name = "each") (written : m.Says name.toList arguments) :
      m.Concerns (.tooDeep depth (some m.start))

namespace Marker

variable {m : Marker} {offset : Int} {name arguments : String}

/-- A marker that means an opening token says the name and the arguments of the token. -/
theorem says_of_means_opening (h : m.Means (.opening offset name arguments)) :
    offset = m.start ∧ m.Says name.toList arguments.toList := by
  obtain ⟨word, rest, hsays, ht⟩ := h
  split at ht
  · cases ht
  · cases ht
    simpa only [String.toList_ofList, true_and] using hsays

/-- A marker that means a closing token says that something ends, and what. -/
theorem says_of_means_closing (h : m.Means (.closing offset name)) :
    offset = m.start ∧ m.Says ['e', 'n', 'd'] name.toList := by
  obtain ⟨word, rest, hsays, ht⟩ := h
  split at ht
  · rename_i hword
    cases ht
    simpa only [String.toList_ofList, true_and, hword] using hsays
  · cases ht

end Marker

/-- **The marker behind a token** that is no text: one of the leftmost markers, not escaped. -/
theorem Tiles.exists_marker {s : List Char} {ms : List Marker} {a : Nat} {ts : List Token} {t : Token}
    (h : Tiles s ms a ts) (ht : t ∈ ts) (htext : t.isText = false) :
    ∃ m ∈ ms, ¬ m.Escaped s ∧ m.Means t := by
  induction ts generalizing a with
  | nil => cases ht
  | cons u ts ih =>
      obtain ⟨b, hcovers, hts⟩ := h
      rcases List.mem_cons.mp ht with rfl | ht
      · obtain ⟨m, hm, hfree, -, -, hmeans⟩ := hcovers.marker htext
        exact ⟨m, hm, hfree, hmeans⟩
      · exact ih hts ht

/-! ## Reports about tokens -/

namespace Tree

/-- What is open was opened by a token of a known name. -/
theorem Pending.exists_opening {ts : List Token} {opens : List (Int × String)}
    (h : Pending ts opens) : ∀ x ∈ opens, ∃ arguments,
      .opening x.1 x.2 arguments ∈ ts ∧ (x.2 = "if" ∨ x.2 = "each") := by
  induction h with
  | level => intro x hx; cases hx
  | @within read opens offset name arguments f bs outer accepted inner ih =>
      intro x hx
      rcases List.mem_cons.mp hx with rfl | hx
      · exact ⟨arguments, by simp, accepted.imp And.left And.left⟩
      · obtain ⟨arguments, hmem, hknown⟩ := ih x hx
        exact ⟨arguments, List.mem_append_left _ hmem, hknown⟩

/-- A token that offends is no text if the report is not about the digit limit, and the report concerns
the marker that means the token. -/
theorem Offends.concerns {opens : List (Int × String)} {t : Token} {e : CompileError}
    (h : Offends opens t e) (hfit : DigitsFit t) :
    t.isText = false ∧ ∀ m : Marker, m.Means t → m.Concerns e := by
  have hlimit : ∀ l, ¬ Offends opens t (.limit l) := not_offends_limit hfit
  cases h with
  | unknown | condition | iteration =>
      refine ⟨rfl, fun m hm => ?_⟩
      obtain ⟨rfl, hsays⟩ := Marker.says_of_means_opening hm
      exact .invalid _ hsays
  | stray | mismatch =>
      refine ⟨rfl, fun m hm => ?_⟩
      obtain ⟨rfl, hsays⟩ := Marker.says_of_means_closing hm
      exact .mismatch _ hsays
  | longText refused => exact absurd (.longText refused) (hlimit _)
  | longCondition refused => exact absurd (.longCondition refused) (hlimit _)
  | longIteration refused => exact absurd (.longIteration refused) (hlimit _)

/-- **A failure to build is about a marker**: among the tokens there is one that is no text, and the
report concerns the marker that means this token. -/
theorem exists_concerns_of_build {ts : List Token} {maxDepth : Option Int} {e : CompileError}
    (hfit : ∀ t ∈ ts, DigitsFit t) (h : build ts maxDepth = .error e) :
    ∃ t ∈ ts, t.isText = false ∧ ∀ m : Marker, m.Means t → m.Concerns e := by
  rcases build_eq_error_or_tooDeep h with
    hnone | ⟨depth, offset, name, arguments, -, hmem, hknown, rfl⟩
  · rcases build_eq_error_iff.mp hnone with
      ⟨offset, name, outer, hpending, rfl⟩ | ⟨read, t, rest, opens, rfl, -, hoffends⟩
    · -- the innermost directive that is left open
      obtain ⟨arguments, hmem, hknown⟩ := hpending.exists_opening _ List.mem_cons_self
      refine ⟨_, hmem, rfl, fun m hm => ?_⟩
      obtain ⟨rfl, hsays⟩ := Marker.says_of_means_opening hm
      exact .unclosed hknown hsays
    · exact ⟨t, by simp, hoffends.concerns (hfit t (by simp))⟩
  · refine ⟨_, hmem, rfl, fun m hm => ?_⟩
    obtain ⟨rfl, hsays⟩ := Marker.says_of_means_opening hm
    exact .tooDeep depth hknown hsays

end Tree

/-! ## Compiling -/

namespace Template

/-- **Every source without long runs of digits is compiled or refused**, and then the report concerns a
marker of the source, one of the leftmost that do not overlap, which is not escaped. -/
theorem compile_ok_or_concerns {source : String} (hfit : DigitRunsFit source.toList)
    (config : Config) :
    (∃ t, compile source config = .ok t) ∨
      ∃ e, compile source config = .error e ∧ ∃ ms m, Leftmost source.toList 0 ms ∧ m ∈ ms ∧
        m.StandsIn source.toList ∧ ¬ m.Escaped source.toList ∧ m.Concerns e := by
  cases hbuild : Tree.build (Token.scan source) config.maxDepth with
  | ok tree => exact Or.inl ⟨_, by rw [compile, hbuild]; rfl⟩
  | error e =>
      -- the report is about a token, and the token stands where its marker does
      obtain ⟨t, ht, htext, hconcerns⟩ :=
        Tree.exists_concerns_of_build (Token.digitsFit_of_mem_scan hfit) hbuild
      obtain ⟨ms, ⟨hms, -⟩, -⟩ := Token.scan_tiles source
      obtain ⟨m, hm, hfree, hmeans⟩ := (Token.tiles_scan hms).exists_marker ht htext
      refine Or.inr ⟨e, by rw [compile, hbuild]; rfl, ms, m, hms, hm, (hms.of_mem hm).2, hfree, ?_⟩
      exact hconcerns m hmeans

/-- A faulty marker behind an escaped one: the report points past the backslash and the text. -/
theorem compile_ok_or_concerns_escaped :
    compile "\\$\x7b#if a\x7d $\x7b#each b\x7d" {} =
      .error (.invalidDirective "each" "b" .iterationForm (some 10)) ∧
    ∃ ms m, Leftmost "\\$\x7b#if a\x7d $\x7b#each b\x7d".toList 0 ms ∧ m ∈ ms ∧
      m.StandsIn "\\$\x7b#if a\x7d $\x7b#each b\x7d".toList ∧
      ¬ m.Escaped "\\$\x7b#if a\x7d $\x7b#each b\x7d".toList ∧
      m.Concerns (.invalidDirective "each" "b" .iterationForm (some 10)) := by
  have hcompile : compile "\\$\x7b#if a\x7d $\x7b#each b\x7d" {} =
      .error (.invalidDirective "each" "b" .iterationForm (some 10)) := by with_unfolding_all rfl
  have hfit : DigitRunsFit "\\$\x7b#if a\x7d $\x7b#each b\x7d".toList :=
    digitRunsFit_of_length_le (by decide)
  refine ⟨hcompile, ?_⟩
  rcases compile_ok_or_concerns hfit {} with ⟨t, ht⟩ | ⟨e, he, hmarker⟩
  · rw [hcompile] at ht
    cases ht
  · rw [hcompile] at he
    cases he
    exact hmarker

end Template

end Stencil
