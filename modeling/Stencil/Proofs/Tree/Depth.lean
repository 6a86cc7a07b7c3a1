import Stencil.Proofs.Tree.Outcome

/-! # The limit to the depth of nesting

A limit to the depth refuses opening markers, and changes nothing else.

* `take_eq_or_tooDeep`: under a limit a token is taken as without one, or it opens a known directive too
  deep.
* `run_none_of_run`: what the stack takes under a limit it takes without one, with the same result.
* `build_none_of_ok` and `build_eq_error_or_tooDeep`: the trees and the errors of building under a
  limit. -/

namespace Stencil.Tree

variable {maxDepth : Option Int} {ts : List Token}

/-- **One token under a limit** is taken as without a limit, or is an opening marker of a known directive
that would be nested too deep. -/
theorem take_eq_or_tooDeep (maxDepth : Option Int) (s : State) (t : Token) :
    s.take maxDepth t = s.take none t ∨
      ∃ depth offset name arguments, maxDepth = some depth ∧ depth ≤ s.frames.length ∧
        t = .opening offset name arguments ∧ (name = "if" ∨ name = "each") ∧
        s.take maxDepth t = .error (.tooDeep depth (some offset)) := by
  cases t with
  | text offset content => exact Or.inl rfl
  | closing offset name => exact Or.inl rfl
  | opening offset name arguments =>
      by_cases hname : Header.directives.contains name = true
      · by_cases hdeep : maxDepth.any (· < (s.frames.length : Int) + 1) = true
        · -- there is a limit, and it is below the depth of the directive
          obtain ⟨depth, rfl, hlt⟩ := (Option.any_eq_true _ _).mp hdeep
          refine Or.inr ⟨depth, offset, name, arguments, rfl, ?_, rfl, ?_, ?_⟩
          · exact Int.lt_add_one_iff.mp (of_decide_eq_true hlt)
          · simpa [Header.directives, Condition.directive, Iteration.directive] using hname
          · rw [State.take, State.opened, if_pos hname, if_pos hdeep]
            rfl
        · left
          rw [State.take, State.take, State.opened, State.opened, if_pos hname, if_pos hname,
            if_neg hdeep, if_neg (by simp)]
      · left
        rw [State.take, State.take, State.opened, State.opened, if_neg hname, if_neg hname]

/-- A token that is taken under a limit is taken without one. -/
theorem take_none_of_take {s s' : State} {t : Token} (h : s.take maxDepth t = .ok s') :
    s.take none t = .ok s' := by
  rcases take_eq_or_tooDeep maxDepth s t with heq | ⟨_, _, _, _, -, -, -, -, herror⟩
  · rw [← heq, h]
  · rw [h] at herror
    cases herror

/-- **Tokens that are taken under a limit** are taken without one. -/
theorem run_none_of_run {s s' : State} (h : ts.foldlM (State.take maxDepth) s = .ok s') :
    ts.foldlM (State.take none) s = .ok s' := by
  induction ts generalizing s with
  | nil => exact h
  | cons t ts ih =>
      rw [List.foldlM_cons] at h ⊢
      obtain ⟨s'', ht, hts⟩ := bind_eq_ok_iff.mp h
      rw [take_none_of_take ht, ok_bind]
      exact ih hts

/-- **A tree that is built under a limit** is built without one. -/
theorem build_none_of_ok {tree : List Branch} (h : build ts maxDepth = .ok tree) :
    build ts none = .ok tree := by
  obtain ⟨s, hrun, hfinish⟩ := bind_eq_ok_iff.mp h
  exact bind_eq_ok_iff.mpr ⟨s, run_none_of_run hrun, hfinish⟩

/-- **A failure under a limit** is one without a limit, or an opening marker of a known directive that is
nested too deep. -/
theorem build_eq_error_or_tooDeep {e : CompileError} (h : build ts maxDepth = .error e) :
    build ts none = .error e ∨
      ∃ depth offset name arguments, maxDepth = some depth ∧ .opening offset name arguments ∈ ts ∧
        (name = "if" ∨ name = "each") ∧ e = .tooDeep depth (some offset) := by
  rcases bind_eq_error_iff.mp h with hrun | ⟨s, hrun, hfinish⟩
  · obtain ⟨before, t, after, s, rfl, hbefore, ht⟩ := foldlM_eq_error_iff.mp hrun
    rcases take_eq_or_tooDeep maxDepth s t with
      heq | ⟨depth, offset, name, arguments, hdepth, -, rfl, hname, htooDeep⟩
    · -- the first token that fails under the limit fails without it, too
      rw [heq] at ht
      refine Or.inl (bind_eq_error_iff.mpr (Or.inl (foldlM_eq_error_iff.mpr ?_)))
      exact ⟨before, t, after, s, rfl, run_none_of_run hbefore, ht⟩
    · rw [htooDeep] at ht
      exact Or.inr ⟨depth, offset, name, arguments, hdepth, by simp, hname, (Except.error.inj ht).symm⟩
  · exact Or.inl (bind_eq_error_iff.mpr (Or.inr ⟨s, run_none_of_run hrun, hfinish⟩))

end Stencil.Tree
