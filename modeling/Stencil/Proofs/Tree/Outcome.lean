import Stencil.Proofs.Text.DigitRun
import Stencil.Proofs.Tree.Forest

/-! # The outcome of building a tree

What `Tree.build` returns for every row of tokens, told by the grammar of forests alone.

* `Pending` says that a row of tokens is the beginning of a forest, and which directives it leaves
  open; `pending_iff_run` ties it to the stack.
* `Offends` says which tokens cannot follow such a beginning, and what the report on them is;
  `take_eq_error_iff` ties it to one step of the stack.
* `build_eq_ok_iff` and `build_eq_error_iff` put both together. -/

namespace Stencil.Tree

/-! ## Beginnings of forests -/

/-- Whether a directive is known and its arguments can be read. -/
def Accepts (offset : Int) (name arguments : String) : Prop :=
  (name = "if" ∧ ∃ c, Condition.parse arguments (some offset) = .ok c) ∨
    (name = "each" ∧ ∃ it, Iteration.parse arguments (some offset) = .ok it)

/-- **The beginning of a forest**: a forest, and then any number of times an opening marker that is
accepted and a forest behind it. The list holds the offset and name of each such marker, the innermost
one first. -/
inductive Pending : List Token → List (Int × String) → Prop
  | level {f : Forest} {bs : List Branch} (whole : f.Yields bs) : Pending f.tokens []
  | within {read : List Token} {opens : List (Int × String)} {offset : Int}
      {name arguments : String} {f : Forest} {bs : List Branch} (outer : Pending read opens)
      (accepted : Accepts offset name arguments) (inner : f.Yields bs) :
      Pending (read ++ .opening offset name arguments :: f.tokens) ((offset, name) :: opens)

/-- An accepted directive has a header of its name. -/
theorem accepts_iff {offset : Int} {name arguments : String} :
    Accepts offset name arguments ↔ ∃ h, Header.parse name arguments offset = .ok h := by
  constructor
  · rintro (⟨rfl, c, hc⟩ | ⟨rfl, it, hit⟩)
    · exact ⟨_, Header.parse_eq_ok_iff.mpr (Or.inl ⟨rfl, c, hc, rfl⟩)⟩
    · exact ⟨_, Header.parse_eq_ok_iff.mpr (Or.inr ⟨rfl, it, hit, rfl⟩)⟩
  · rintro ⟨h, hp⟩
    rcases Header.parse_eq_ok_iff.mp hp with ⟨hname, c, hc, -⟩ | ⟨hname, it, hit, -⟩
    · exact Or.inl ⟨hname, c, hc⟩
    · exact Or.inr ⟨hname, it, hit⟩

/-- An accepted directive around a forest that stands for branches stands for one branch. -/
theorem Accepts.yields {offset : Int} {name arguments : String} {f : Forest} {bs : List Branch}
    (ha : Accepts offset name arguments) (hf : f.Yields bs) (stop : Int) :
    ∃ b, (Forest.directive offset name arguments f stop .empty).Yields [b] := by
  obtain ⟨h, hp⟩ := accepts_iff.mp ha
  exact ⟨_, .directive hp hf .empty⟩

/-- A forest can follow every beginning, and leaves open what was open. -/
theorem Pending.extend {read : List Token} {opens : List (Int × String)} {f : Forest}
    {bs : List Branch} (h : Pending read opens) (hf : f.Yields bs) :
    Pending (read ++ f.tokens) opens := by
  cases h with
  | level whole =>
      rw [← Forest.tokens_append]
      exact .level (whole.append hf)
  | within outer accepted inner =>
      rw [List.append_assoc, List.cons_append, ← Forest.tokens_append]
      exact .within outer accepted (inner.append hf)

/-- A closing marker of the innermost name can follow a beginning, and takes that name off. -/
theorem Pending.close {read : List Token} {opens : List (Int × String)} {offset : Int}
    {name : String} (h : Pending read ((offset, name) :: opens)) (stop : Int) :
    Pending (read ++ [.closing stop name]) opens := by
  cases h with
  | @within read opens offset name arguments f bs outer accepted inner =>
      -- with its closing marker the directive is a tree of the forest before it
      obtain ⟨b, hb⟩ := accepted.yields inner stop
      have hext := outer.extend hb
      simpa [Forest.tokens] using hext

/-- Offset and name of what is open in a state, the innermost first. -/
def State.opens (s : State) : List (Int × String) :=
  s.frames.map fun f => (f.offset, f.header.directive)

/-- **One token more.** What the stack takes after a beginning makes a longer beginning. -/
theorem Pending.take {read : List Token} {s s' : State} {t : Token} (h : Pending read s.opens)
    (ht : s.take none t = .ok s') : Pending (read ++ [t]) s'.opens := by
  cases t with
  | text offset content =>
      obtain ⟨segments, hscan, hs⟩ := bind_eq_ok_iff.mp ht
      cases hs
      exact h.extend (.text (mapError_eq_ok_iff.mp hscan) .empty)
  | opening offset name arguments =>
      rw [State.take, opened_none] at ht
      obtain ⟨hd, hp, hs⟩ := bind_eq_ok_iff.mp ht
      cases hs
      obtain rfl := Header.directive_of_parse hp
      exact .within h (accepts_iff.mpr ⟨hd, hp⟩) .empty
  | closing offset name =>
      obtain ⟨level, frames⟩ := s
      cases frames with
      | nil => cases ht
      | cons f frames =>
          simp only [State.take, State.closed] at ht
          by_cases hname : f.header.directive = name
          · subst hname
            rw [if_pos rfl] at ht
            cases ht
            exact h.close offset
          · rw [if_neg hname] at ht
            cases ht

/-- **Beginnings are what the stack takes.** A row of tokens is the beginning of a forest iff the
stack takes all of them, and what it leaves open is what is then on the stack. -/
theorem pending_iff_run {ts : List Token} {opens : List (Int × String)} :
    Pending ts opens ↔ ∃ s, ts.foldlM (State.take none) .start = .ok s ∧ s.opens = opens := by
  constructor
  · intro h
    induction h with
    | level whole => exact ⟨_, whole.run _, rfl⟩
    | @within read opens offset name arguments f bs _ accepted inner ih =>
        obtain ⟨s, hs, rfl⟩ := ih
        obtain ⟨h, hp⟩ := accepts_iff.mp accepted
        obtain rfl := Header.directive_of_parse hp
        refine ⟨⟨bs.reverse ++ [], ⟨h, offset, s.level⟩ :: s.frames⟩, ?_, rfl⟩
        rw [List.foldlM_append, hs, ok_bind, List.foldlM_cons, take_opening hp, ok_bind, inner.run]
  · rintro ⟨s, hs, rfl⟩
    -- the induction takes off the last token, since a beginning grows at its end
    induction ts using List.reverseRecOn generalizing s with
    | nil => cases hs; exact .level .empty
    | append_singleton ts t ih =>
        rw [List.foldlM_append, bind_eq_ok_iff] at hs
        obtain ⟨s', hs', ht⟩ := hs
        rw [List.foldlM_cons, bind_eq_ok_iff] at ht
        obtain ⟨s'', ht, hlast⟩ := ht
        cases hlast
        exact (ih s' hs').take ht

/-! ## Reports on arguments -/

/-- **A report on a directive**: that it is invalid, with its own name, arguments and offset, or that
an integer in it is too long. -/
def ReportsOn (name arguments : String) (offset : Option Int) (e : CompileError) : Prop :=
  (∃ fault, e = .invalidDirective name arguments fault offset) ∨ ∃ l, e = .limit l

/-- The error about a path in a directive reports on the directive. -/
theorem reportsOn_pathError (name arguments : String) (offset : Option Int) (e : PathError) :
    ReportsOn name arguments offset (Condition.pathError name arguments offset e) := by
  cases e with
  | malformed text fault => exact Or.inl ⟨_, rfl⟩
  | limit l => exact Or.inr ⟨l, rfl⟩

/-- A condition that cannot be read is reported on as such. -/
theorem reportsOn_of_condition {arguments : String} {offset : Option Int} {e : CompileError}
    (h : Condition.parse arguments offset = .error e) : ReportsOn "if" arguments offset e := by
  unfold Condition.parse at h
  dsimp only at h
  split at h
  · cases h
    exact Or.inl ⟨_, rfl⟩
  · rcases bind_eq_error_iff.mp h with hpath | ⟨path, -, h⟩
    · obtain ⟨d, -, rfl⟩ := mapError_eq_error_iff.mp hpath
      exact reportsOn_pathError _ _ _ d
    · split at h
      · cases h
      · split at h
        · cases h
          exact Or.inl ⟨_, rfl⟩
        · rcases bind_eq_error_iff.mp h with hoperand | ⟨operand, -, h⟩
          · obtain ⟨d, -, rfl⟩ := mapError_eq_error_iff.mp hoperand
            exact reportsOn_pathError _ _ _ d
          · cases h

/-- An iteration that cannot be read is reported on as such. -/
theorem reportsOn_of_iteration {arguments : String} {offset : Option Int} {e : CompileError}
    (h : Iteration.parse arguments offset = .error e) : ReportsOn "each" arguments offset e := by
  unfold Iteration.parse at h
  split at h
  · cases h
    exact Or.inl ⟨_, rfl⟩
  · rcases bind_eq_error_iff.mp h with hpath | ⟨path, -, h⟩
    · obtain ⟨d, -, rfl⟩ := mapError_eq_error_iff.mp hpath
      exact reportsOn_pathError _ _ _ d
    · cases h

/-! ## Offending tokens -/

/-- **What cannot follow** a beginning that leaves these directives open, and the report on it: an
unknown directive, arguments that cannot be read, a closing marker that does not close the innermost
directive, and an integer beyond the digit limit. -/
inductive Offends (opens : List (Int × String)) : Token → CompileError → Prop
  | unknown {offset : Int} {name arguments : String} (hif : name ≠ "if") (heach : name ≠ "each") :
      Offends opens (.opening offset name arguments)
        (.invalidDirective name arguments .unknownDirective (some offset))
  | condition {offset : Int} {arguments : String} {fault : DirectiveFault}
      (refused : Condition.parse arguments (some offset)
        = .error (.invalidDirective "if" arguments fault (some offset))) :
      Offends opens (.opening offset "if" arguments)
        (.invalidDirective "if" arguments fault (some offset))
  | iteration {offset : Int} {arguments : String} {fault : DirectiveFault}
      (refused : Iteration.parse arguments (some offset)
        = .error (.invalidDirective "each" arguments fault (some offset))) :
      Offends opens (.opening offset "each" arguments)
        (.invalidDirective "each" arguments fault (some offset))
  | stray {offset : Int} {name : String} (hopens : opens = []) :
      Offends opens (.closing offset name) (.mismatchedClose "root" name (some offset))
  | mismatch {offset start : Int} {name innermost : String} {outer : List (Int × String)}
      (hopens : opens = (start, innermost) :: outer) (hne : innermost ≠ name) :
      Offends opens (.closing offset name) (.mismatchedClose innermost name (some offset))
  | longText {offset : Int} {content : String} {l : Limit}
      (refused : Segment.scan content = .error l) : Offends opens (.text offset content) (.limit l)
  | longCondition {offset : Int} {arguments : String} {l : Limit}
      (refused : Condition.parse arguments (some offset) = .error (.limit l)) :
      Offends opens (.opening offset "if" arguments) (.limit l)
  | longIteration {offset : Int} {arguments : String} {l : Limit}
      (refused : Iteration.parse arguments (some offset) = .error (.limit l)) :
      Offends opens (.opening offset "each" arguments) (.limit l)

/-- The stack refuses an opening marker as its header cannot be read. -/
theorem take_opening_eq_error_iff {s : State} {offset : Int} {name arguments : String}
    {e : CompileError} : s.take none (.opening offset name arguments) = .error e ↔
      Header.parse name arguments offset = .error e := by
  rw [State.take, opened_none, bind_eq_error_iff]
  constructor
  · rintro (h | ⟨hd, -, h⟩)
    · exact h
    · cases h
  · exact Or.inl

/-- A header that cannot be read offends. -/
theorem offends_opening_iff {opens : List (Int × String)} {offset : Int} {name arguments : String}
    {e : CompileError} : Offends opens (.opening offset name arguments) e ↔
      Header.parse name arguments offset = .error e := by
  constructor
  · intro h
    cases h with
    | unknown hif heach => exact (if_neg hif).trans (if_neg heach)
    | condition refused =>
        rw [Header.parse, if_pos (by rfl), refused]
        rfl
    | iteration refused =>
        rw [Header.parse, if_neg (by decide), if_pos (by rfl), refused]
        rfl
    | longCondition refused =>
        rw [Header.parse, if_pos (by rfl), refused]
        rfl
    | longIteration refused =>
        rw [Header.parse, if_neg (by decide), if_pos (by rfl), refused]
        rfl
  · intro h
    unfold Header.parse at h
    split at h
    · -- what cannot be read is either faulty or too long
      have hc := map_eq_error_iff.mp h
      subst name
      rcases reportsOn_of_condition hc with ⟨fault, rfl⟩ | ⟨l, rfl⟩
      · exact .condition hc
      · exact .longCondition hc
    · split at h
      · have hit := map_eq_error_iff.mp h
        subst name
        rcases reportsOn_of_iteration hit with ⟨fault, rfl⟩ | ⟨l, rfl⟩
        · exact .iteration hit
        · exact .longIteration hit
      · cases h
        exact .unknown ‹_› ‹_›

/-- The stack refuses a text as its segments cannot be read. -/
theorem take_text_eq_error_iff {s : State} {offset : Int} {content : String} {e : CompileError} :
    s.take none (.text offset content) = .error e ↔
      ∃ l, Segment.scan content = .error l ∧ e = .limit l := by
  rw [State.take, bind_eq_error_iff, mapError_eq_error_iff]
  constructor
  · rintro (⟨l, hl, rfl⟩ | ⟨segments, -, h⟩)
    · exact ⟨l, hl, rfl⟩
    · cases h
  · rintro ⟨l, hl, rfl⟩
    exact Or.inl ⟨l, hl, rfl⟩

/-- The stack refuses a closing marker when nothing is open, or the innermost open directive has
another name. -/
theorem take_closing_eq_error_iff {s : State} {offset : Int} {name : String} {e : CompileError} :
    s.take none (.closing offset name) = .error e ↔
      (s.opens = [] ∧ e = .mismatchedClose "root" name (some offset)) ∨
      ∃ start innermost outer, s.opens = (start, innermost) :: outer ∧ innermost ≠ name ∧
        e = .mismatchedClose innermost name (some offset) := by
  obtain ⟨level, frames⟩ := s
  cases frames with
  | nil =>
      constructor
      · intro h
        cases h
        exact Or.inl ⟨rfl, rfl⟩
      · rintro (⟨-, rfl⟩ | ⟨start, innermost, outer, hopens, -⟩)
        · rfl
        · cases hopens
  | cons f frames =>
      simp only [State.take, State.closed]
      constructor
      · intro h
        by_cases hname : f.header.directive = name
        · rw [if_pos hname] at h
          cases h
        · rw [if_neg hname] at h
          cases h
          exact Or.inr ⟨f.offset, _, _, rfl, hname, rfl⟩
      · rintro (⟨hopens, -⟩ | ⟨start, innermost, outer, hopens, hne, rfl⟩)
        · cases hopens
        · cases hopens
          rw [if_neg hne]

/-- **One token refused.** The stack refuses a token iff it offends against what is open. -/
theorem take_eq_error_iff {s : State} {t : Token} {e : CompileError} :
    s.take none t = .error e ↔ Offends s.opens t e := by
  cases t with
  | text offset content =>
      rw [take_text_eq_error_iff]
      constructor
      · rintro ⟨l, hl, rfl⟩
        exact .longText hl
      · intro h
        cases h with
        | longText refused => exact ⟨_, refused, rfl⟩
  | opening offset name arguments =>
      rw [take_opening_eq_error_iff, offends_opening_iff]
  | closing offset name =>
      rw [take_closing_eq_error_iff]
      constructor
      · rintro (⟨hopens, rfl⟩ | ⟨start, innermost, outer, hopens, hne, rfl⟩)
        · exact .stray hopens
        · exact .mismatch hopens hne
      · intro h
        cases h with
        | stray hopens => exact Or.inl ⟨hopens, rfl⟩
        | mismatch hopens hne => exact Or.inr ⟨_, _, _, hopens, hne, rfl⟩

/-- Whether no run of digits in a token is beyond the limit. -/
def DigitsFit : Token → Prop
  | .text _ content => DigitRunsFit content.toList
  | .opening _ _ arguments => DigitRunsFit arguments.toList
  | .closing _ _ => True

/-- A token without long runs of digits does not offend against the digit limit. -/
theorem not_offends_limit {opens : List (Int × String)} {t : Token} (hfit : DigitsFit t)
    (l : Limit) : ¬ Offends opens t (.limit l) := by
  intro h
  cases h with
  | longText refused => exact Segment.scan_ne_limit hfit l refused
  | longCondition refused => exact Condition.parse_ne_limit hfit _ l refused
  | longIteration refused => exact Iteration.parse_ne_limit hfit _ l refused

/-! ## The outcome -/

/-- A tree is built iff the tokens are those of a forest that stands for it. -/
theorem build_eq_ok_iff {ts : List Token} {tree : List Branch} :
    build ts none = .ok tree ↔ ∃ f : Forest, f.tokens = ts ∧ f.Yields tree := by
  rw [build, bind_eq_ok_iff]
  constructor
  · rintro ⟨⟨level, frames⟩, hrun, hfinish⟩
    cases frames with
    | cons f frames => cases hfinish
    | nil =>
        cases hfinish
        -- a beginning that leaves nothing open is a forest
        cases pending_iff_run.mpr ⟨_, hrun, rfl⟩ with
        | @level f bs whole =>
            rw [whole.run] at hrun
            cases hrun
            exact ⟨f, rfl, by simpa [State.start] using whole⟩
  · rintro ⟨f, rfl, hf⟩
    exact ⟨_, hf.run _, by simp [State.finish, State.start]⟩

/-- A failure to build is a directive left open, or the first token that cannot follow. -/
theorem build_eq_error_iff {ts : List Token} {e : CompileError} :
    build ts none = .error e ↔
      (∃ offset name outer, Pending ts ((offset, name) :: outer) ∧
        e = .unclosed name (some offset)) ∨
      ∃ read t rest opens, ts = read ++ t :: rest ∧ Pending read opens ∧ Offends opens t e := by
  rw [build, bind_eq_error_iff, or_comm]
  refine or_congr ⟨?_, ?_⟩ ?_
  · rintro ⟨⟨level, frames⟩, hrun, hfinish⟩
    cases frames with
    | nil => cases hfinish
    | cons f frames =>
        cases hfinish
        exact ⟨f.offset, f.header.directive, _, pending_iff_run.mpr ⟨_, hrun, rfl⟩, rfl⟩
  · rintro ⟨offset, name, outer, hpending, rfl⟩
    obtain ⟨⟨level, frames⟩, hrun, hopens⟩ := pending_iff_run.mp hpending
    cases frames with
    | nil => cases hopens
    | cons f frames =>
        cases hopens
        exact ⟨_, hrun, rfl⟩
  · rw [foldlM_eq_error_iff]
    constructor
    · rintro ⟨read, t, rest, s, rfl, hrun, ht⟩
      exact ⟨read, t, rest, s.opens, rfl, pending_iff_run.mpr ⟨s, hrun, rfl⟩,
        take_eq_error_iff.mp ht⟩
    · rintro ⟨read, t, rest, opens, rfl, hpending, hoffends⟩
      obtain ⟨s, hrun, rfl⟩ := pending_iff_run.mp hpending
      exact ⟨read, t, rest, s, rfl, hrun, take_eq_error_iff.mpr hoffends⟩

/-- **The exact outcome of building a tree.** A tree is built iff the tokens are those of a forest
that stands for it, and there is then no other forest with these tokens. Building fails iff the
tokens are the beginning of a forest that leaves a directive open, with a report on the innermost
one, or there is a first token that cannot follow the beginning before it, with a report on that
token. The digit limit is reported only where a token exceeds it. -/
theorem build_outcome (ts : List Token) :
    (∀ tree, build ts none = .ok tree ↔
      ∃ f : Forest, (f.tokens = ts ∧ f.Yields tree) ∧ ∀ g : Forest, g.tokens = ts → g = f) ∧
    (∀ e, build ts none = .error e ↔
      (∃ offset name outer, Pending ts ((offset, name) :: outer) ∧
        e = .unclosed name (some offset)) ∨
      ∃ read t rest opens, ts = read ++ t :: rest ∧ Pending read opens ∧ Offends opens t e) ∧
    ((∀ t ∈ ts, DigitsFit t) → ∀ l, build ts none ≠ .error (.limit l)) := by
  refine ⟨fun tree => ?_, fun e => build_eq_error_iff, fun hfit l h => ?_⟩
  · rw [build_eq_ok_iff]
    constructor
    · rintro ⟨f, hf, hyields⟩
      exact ⟨f, ⟨hf, hyields⟩, fun g hg => Forest.eq_of_tokens_eq (hg.trans hf.symm)⟩
    · rintro ⟨f, hf, -⟩
      exact ⟨f, hf⟩
  · rcases build_eq_error_iff.mp h with ⟨_, _, _, -, he⟩ | ⟨read, t, rest, opens, rfl, -, hoffends⟩
    · cases he
    · exact not_offends_limit (hfit t (by simp)) l hoffends

/-- A directive that is closed under another name. -/
def crossed : List Token := [.opening 0 "if" "x", .text 8 "${y}", .closing 12 "each"]

theorem build_outcome_crossed :
    (∀ t ∈ crossed, DigitsFit t) ∧ (∀ l, build crossed none ≠ .error (.limit l)) ∧
      build crossed none = .error (.mismatchedClose "if" "each" (some 12)) := by
  have hfit : ∀ t ∈ crossed, DigitsFit t := by
    intro t ht
    simp only [crossed, List.mem_cons, List.not_mem_nil, or_false] at ht
    rcases ht with rfl | rfl | rfl
    · exact digitRunsFit_of_length_le (by decide)
    · exact digitRunsFit_of_length_le (by decide)
    · trivial
  refine ⟨hfit, (build_outcome crossed).2.2 hfit, ((build_outcome crossed).2.1 _).mpr (Or.inr ?_)⟩
  refine ⟨[.opening 0 "if" "x", .text 8 "${y}"], .closing 12 "each", [], [(0, "if")], rfl, ?_,
    .mismatch rfl (by decide)⟩
  have hread : Condition.parse "x" (some 0) = .ok ⟨false, ⟨"x", [.name "x"]⟩, .truthy⟩ := by
    with_unfolding_all rfl
  have hscan : Segment.scan "${y}" = .ok [.placeholder ⟨"y", [.name "y"]⟩ "${y}"] := by
    with_unfolding_all rfl
  exact .within (.level .empty) (Or.inl ⟨rfl, _, hread⟩) (.text hscan .empty)

end Stencil.Tree
