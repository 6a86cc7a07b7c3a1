import Stencil.Proofs.Markup.Front
import Stencil.Proofs.Tree.Depth
import Stencil.Template

/-! # The first fault of a source

A report about a marker is decided by the source up to this marker.

* `CompileError.PointsAt` says which reports are about a marker that cannot stand where it stands. A
  directive that is left open is none of them: what is missing may still follow.
* `Tree.exists_of_build`: such a report is about a token, which is reported whatever stands behind it, and
  without which nothing worse is found than a directive that is left open.
* `Template.compile_first_fault` says the same of a source and its characters. -/

namespace Stencil

/-- Whether a report **points at a marker**, at this offset, as one that cannot stand there. -/
inductive CompileError.PointsAt (offset : Int) : CompileError → Prop
  | invalid (name arguments : String) (fault : DirectiveFault) :
      PointsAt offset (.invalidDirective name arguments fault (some offset))
  | mismatch (expected found : String) : PointsAt offset (.mismatchedClose expected found (some offset))
  | tooDeep (depth : Int) : PointsAt offset (.tooDeep depth (some offset))

namespace Tree

variable {opens : List (Int × String)} {s : State} {t : Token} {e : CompileError} {offset : Int}
  {maxDepth : Option Int}

/-- A report about a marker is about the token that offends. -/
theorem Offends.pointsAt (h : Offends opens t e) (he : e.PointsAt offset) :
    t.isText = false ∧ t.offset = offset := by
  cases h with
  | unknown | condition | iteration | stray | mismatch =>
      cases he
      exact ⟨rfl, rfl⟩
  | longText | longCondition | longIteration => cases he

/-- The stack reports a marker only when it comes to it. -/
theorem pointsAt_of_take (h : s.take maxDepth t = .error e) (he : e.PointsAt offset) :
    t.isText = false ∧ t.offset = offset := by
  rcases take_eq_or_tooDeep maxDepth s t with heq | ⟨depth, o, name, arguments, -, -, rfl, -, hdeep⟩
  · rw [heq] at h
    exact (take_eq_error_iff.mp h).pointsAt he
  · rw [hdeep] at h
    cases h
    cases he
    exact ⟨rfl, rfl⟩

/-- What is wrong when all tokens are taken is that a directive is left open. -/
theorem finish_eq (s : State) :
    (∃ tree, s.finish = .ok tree) ∨ ∃ name offset, s.finish = .error (.unclosed name offset) := by
  obtain ⟨level, frames⟩ := s
  cases frames with
  | nil => exact Or.inl ⟨_, rfl⟩
  | cons f frames => exact Or.inr ⟨_, _, rfl⟩

/-- **A report about a marker** is about one of the tokens. It is the same whatever stands behind this
token, and from the tokens before it a tree is built, or a directive is left open. -/
theorem exists_of_build {ts : List Token} (h : build ts maxDepth = .error e) (he : e.PointsAt offset) :
    ∃ read t rest, ts = read ++ t :: rest ∧ t.isText = false ∧ t.offset = offset ∧
      (∀ more, build (read ++ t :: more) maxDepth = .error e) ∧
      ((∃ tree, build read maxDepth = .ok tree) ∨
        ∃ name o, build read maxDepth = .error (.unclosed name o)) := by
  rcases bind_eq_error_iff.mp h with hrun | ⟨s, -, hfinish⟩
  · obtain ⟨read, t, rest, s, rfl, hread, ht⟩ := foldlM_eq_error_iff.mp hrun
    obtain ⟨htext, hoffset⟩ := pointsAt_of_take ht he
    refine ⟨read, t, rest, rfl, htext, hoffset, fun more => ?_, ?_⟩
    · refine bind_eq_error_iff.mpr (Or.inl (foldlM_eq_error_iff.mpr ?_))
      exact ⟨read, t, more, s, rfl, hread, ht⟩
    · rw [build, hread]
      exact finish_eq s
  · -- a directive that is left open is no such report
    rcases finish_eq s with ⟨tree, hs⟩ | ⟨name, o, hs⟩
    · rw [hs] at hfinish
      cases hfinish
    · rw [hs] at hfinish
      cases hfinish
      cases he

end Tree

namespace Template

/-- Compiling fails as building the tree does. -/
theorem compile_eq_error_iff {source : String} {config : Config} {e : CompileError} :
    compile source config = .error e ↔
      Tree.build (Token.scan source) config.maxDepth = .error e := by
  cases hbuild : Tree.build (Token.scan source) config.maxDepth with
  | ok tree =>
      have hcompile : compile source config = .ok ⟨tree, source, config.maxOutput⟩ := by
        rw [compile, hbuild]
        rfl
      rw [hcompile]
      exact ⟨nofun, nofun⟩
  | error d =>
      have hcompile : compile source config = .error d := by
        rw [compile, hbuild]
        rfl
      rw [hcompile, Except.error.injEq, Except.error.injEq]

/-- **A report about a marker is decided by the source up to the marker.** The source is cut before the
marker, and behind the first closing brace from there on. Whatever follows this brace, the report is the
same; and what stands before the marker is compiled, or leaves a directive open. -/
theorem compile_first_fault {source : String} {config : Config} {e : CompileError} {offset : Int}
    (h : compile source config = .error e) (he : e.PointsAt offset) :
    ∃ front marker after : List Char, source.toList = front ++ (marker ++ '\x7d' :: after) ∧
      offset = front.length ∧ '\x7d' ∉ marker ∧
      (∀ t : String, compile (String.ofList (front ++ (marker ++ ['\x7d'])) ++ t) config = .error e) ∧
      ((∃ w, compile (String.ofList front) config = .ok w) ∨
        ∃ name o, compile (String.ofList front) config = .error (.unclosed name o)) := by
  obtain ⟨read, t, rest, hscan, htext, rfl, hmore, hread⟩ :=
    Tree.exists_of_build (compile_eq_error_iff.mp h) he
  obtain ⟨front, inner, after, hsource, hopen, hoffset, hfront, hbehind⟩ :=
    Token.exists_front hscan htext
  refine ⟨front, '$' :: '\x7b' :: inner, after, ?_, hoffset, ?_, fun u => ?_, ?_⟩
  · rw [hsource, Markup.siteText_append]
    rfl
  · simpa using hopen
  · obtain ⟨more, hu⟩ := hbehind u
    refine compile_eq_error_iff.mpr ?_
    rw [show front ++ ('$' :: '\x7b' :: inner ++ ['\x7d']) = front ++ Markup.Piece.siteText inner from rfl,
      hu]
    exact hmore more
  · rcases hread with ⟨tree, htree⟩ | ⟨name, o, hunclosed⟩
    · refine Or.inl ⟨⟨tree, String.ofList front, config.maxOutput⟩, ?_⟩
      rw [compile, hfront, htree]
      rfl
    · exact Or.inr ⟨name, o, compile_eq_error_iff.mpr (hfront ▸ hunclosed)⟩

/-- A closing marker behind an escaped one, which is text, and before another fault. -/
theorem compile_first_fault_escaped :
    compile "$\x7b#if a\x7d\\$\x7b#b\x7d$\x7b#end each\x7d$\x7b#c\x7d" {} =
      .error (.mismatchedClose "if" "each" (some 14)) ∧
    ∃ front marker after : List Char,
      "$\x7b#if a\x7d\\$\x7b#b\x7d$\x7b#end each\x7d$\x7b#c\x7d".toList =
        front ++ (marker ++ '\x7d' :: after) ∧ (14 : Int) = front.length ∧ '\x7d' ∉ marker ∧
      (∀ t : String, compile (String.ofList (front ++ (marker ++ ['\x7d'])) ++ t) {} =
        .error (.mismatchedClose "if" "each" (some 14))) ∧
      ((∃ w, compile (String.ofList front) {} = .ok w) ∨
        ∃ name o, compile (String.ofList front) {} = .error (.unclosed name o)) := by
  have hcompile : compile "$\x7b#if a\x7d\\$\x7b#b\x7d$\x7b#end each\x7d$\x7b#c\x7d" {} =
      .error (.mismatchedClose "if" "each" (some 14)) := by with_unfolding_all rfl
  exact ⟨hcompile, compile_first_fault hcompile (.mismatch "if" "each")⟩

end Template

end Stencil
