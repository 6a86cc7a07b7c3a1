import Stencil.Proofs.Markup.Escape
import Stencil.Proofs.Render.Run
import Stencil.Proofs.Tree.Outcome

/-! # Literal texts

Every text has a source that renders it, whatever the data are.

* `Tree.build_escape`: the tree of an escaped text is one text branch.
* `Branch.run_renderAll_ofRun`: a literal run is rendered to itself.
* `Template.compile_escaped`: a text, with its placeholders escaped and then the markers of what came
  out of it, is such a source. -/

namespace Stencil

open Markup

/-- **The tree of an escaped text** is one branch with its segments, or none if it is empty. -/
theorem Tree.build_escape {s : List Char} {segments : List Segment}
    (hscan : Segment.scan (String.ofList s) = .ok segments) :
    Tree.build (Token.scan (String.ofList (escape opensMarker s))) none =
      .ok (if (String.ofList s).isEmpty then [] else [.text segments]) := by
  rw [Token.scan_escape, Token.ofRun, Tree.build_eq_ok_iff]
  split
  · exact ⟨.empty, rfl, .empty⟩
  · exact ⟨.text 0 (String.ofList s) .empty, rfl, .text hscan .empty⟩

/-- **A literal run is rendered to itself**, in every scope. -/
theorem Segment.run_renderAll_ofRun (scope : Value) (run : String) (a : Account) :
    ∃ b, (Segment.renderAll none scope (ofRun run)).run a = (.ok run, b) := by
  rw [ofRun]
  split
  · rename_i hempty
    rw [String.isEmpty_iff.mp hempty]
    exact ⟨_, rfl⟩
  · refine ⟨_, Prod.ext ?_ rfl⟩
    show Except.ok (String.join [run]) = _
    rw [String.join_cons, String.join_nil, String.append_empty]

/-- **The one branch of a literal run** is rendered to the run, in every scope. -/
theorem Branch.run_renderAll_ofRun (scope : Value) (run : String) (a : Account) :
    ∃ b, (Branch.renderAll none [.text (Segment.ofRun run)] scope).run a = (.ok run, b) := by
  obtain ⟨b, hrun⟩ := Segment.run_renderAll_ofRun scope run a
  refine ⟨b, ?_⟩
  show (Segment.renderAll none scope _ >>= fun first =>
    Branch.renderAll none [] scope >>= fun rest => pure (first ++ rest)).run a = _
  rw [Render.run_bind_of_ok hrun]
  show (Except.ok (run ++ ""), b) = _
  rw [String.append_empty]

namespace Template

/-- Only the empty text has no literal run. -/
theorem ofRun_eq_nil {run : String} (h : Segment.ofRun run = []) : run = "" := by
  rw [Segment.ofRun] at h
  split at h
  · exact String.isEmpty_iff.mp ‹_›
  · cases h

/-- **An escaped text compiles, and renders the text** whatever the data are. The markers are those of
the text in which the placeholders are escaped already. -/
theorem compile_escape (t : List Char) :
    ∃ w, compile (String.ofList (escape opensMarker (escape opensPlaceholder t))) {} = .ok w ∧
      ∀ entries a, ((w.render (.map entries)).run a).1 = .ok (String.ofList t) := by
  have hscan := Segment.scan_escape t
  have htree := Tree.build_escape hscan
  refine ⟨_, bind_eq_ok_iff.mpr ⟨_, htree, rfl⟩, fun entries a => ?_⟩
  show ((Branch.renderAll none _ (.map entries)).run { a with used := 0 }).1 = _
  split
  · -- then the text is empty, too
    rename_i hempty
    have hnil : Segment.scan (String.ofList (escape opensPlaceholder t)) = .ok [] := by
      rw [String.isEmpty_iff.mp hempty]
      with_unfolding_all rfl
    rw [hscan] at hnil
    rw [ofRun_eq_nil (Except.ok.inj hnil)]
    rfl
  · obtain ⟨b, hrun⟩ := Branch.run_renderAll_ofRun (.map entries) (String.ofList t) { a with used := 0 }
    rw [hrun]

/-- **Every text can be written literally.** A backslash before each of the leftmost placeholders of a
text, and then one before each of the leftmost markers of what comes of it, gives a source that
compiles and renders the text, whatever the data are. A text in which nothing opens a site is its own
source. -/
theorem compile_escaped (t : String) :
    (∃ u e, Escapes opensPlaceholder t.toList u ∧ Escapes opensMarker u e) ∧
    (∀ u e, Escapes opensPlaceholder t.toList u → Escapes opensMarker u e →
      ∃ w, compile (String.ofList e) {} = .ok w ∧
        ∀ entries a, ((w.render (.map entries)).run a).1 = .ok t) ∧
    (¬ ['$', '\x7b'] <:+: t.toList →
      Escapes opensPlaceholder t.toList t.toList ∧ Escapes opensMarker t.toList t.toList ∧
      ∃ w, compile t {} = .ok w ∧ ∀ entries a, ((w.render (.map entries)).run a).1 = .ok t) := by
  have hcompile := compile_escape t.toList
  rw [String.ofList_toList] at hcompile
  refine ⟨⟨_, _, escapes_iff.mpr rfl, escapes_iff.mpr rfl⟩, fun u e hu he => ?_, fun hplain => ?_⟩
  · rw [escapes_iff.mp he, escapes_iff.mp hu]
    exact hcompile
  · rw [escape_eq_self hplain, escape_eq_self hplain, String.ofList_toList] at hcompile
    refine ⟨escapes_iff.mpr ?_, escapes_iff.mpr ?_, hcompile⟩
    · exact (escape_eq_self hplain).symm
    · exact (escape_eq_self hplain).symm

/-- A marker inside a placeholder, behind it a placeholder with a backslash before it, and a text that is
its own source. -/
theorem compile_escaped_nested :
    (∃ w, compile "\\$\x7ba \\$\x7b#b\x7d \\\\$\x7bc\x7d" {} = .ok w ∧
      ∀ entries a, ((w.render (.map entries)).run a).1 = .ok "$\x7ba $\x7b#b\x7d \\$\x7bc\x7d") ∧
    ∃ w, compile "5 $ \x7ba\x7d" {} = .ok w ∧
      ∀ entries a, ((w.render (.map entries)).run a).1 = .ok "5 $ \x7ba\x7d" := by
  have hu : Escapes opensPlaceholder "$\x7ba $\x7b#b\x7d \\$\x7bc\x7d".toList
      "\\$\x7ba $\x7b#b\x7d \\\\$\x7bc\x7d".toList :=
    escapes_iff.mpr (by with_unfolding_all rfl)
  have he : Escapes opensMarker "\\$\x7ba $\x7b#b\x7d \\\\$\x7bc\x7d".toList
      "\\$\x7ba \\$\x7b#b\x7d \\\\$\x7bc\x7d".toList :=
    escapes_iff.mpr (by with_unfolding_all rfl)
  have hplain : ¬ ['$', '\x7b'] <:+: "5 $ \x7ba\x7d".toList := by decide
  exact ⟨(compile_escaped _).2.1 _ _ hu he, ((compile_escaped _).2.2 hplain).2.2⟩

end Template

end Stencil
