import Stencil.Proofs.Render.Run
import Stencil.Proofs.Value.StreamFree

/-! # Renderings that do not depend on the account

Without a limit, the account decides what a rendering returns only through the streams that were
walked before.

* `Render.Steady` holds of the renderings that return the same from every account, which is then their
  `Render.outcome`; it is kept in sequence, and `outcome_bind` and `outcome_mapM` say what such
  renderings return in a row.
* `Render.InSequence.branches`: in a scope without streams, what is kept in sequence and holds of charging
  holds of all branches.
* `Branch.steady_renderAll`: in such a scope, rendering branches is steady.
* `Branch.outcome_renderAll`: it returns the texts of the branches, one after the other. -/

namespace Stencil

namespace Render

variable {α β : Type}

/-- The **outcome** of a rendering from an empty account. -/
def outcome (x : Render α) : Except RenderError α := (x.run .start).1

/-- A rendering is **steady** if it returns the same from every account. -/
def Steady (x : Render α) : Prop := ∀ a, (x.run a).1 = x.outcome

theorem steady_pure (v : α) : Steady (pure v) := fun _ => rfl

@[simp] theorem outcome_pure (v : α) : (pure v : Render α).outcome = .ok v := rfl

/-- What two renderings in a row return, the first of which is known. -/
theorem fst_run_bind {x : Render α} {f : α → Render β}
    (hf : ∀ v, x.outcome = .ok v → Steady (f v)) {a : Account} (ha : (x.run a).1 = x.outcome) :
    ((x >>= f).run a).1 = x.outcome >>= fun v => (f v).outcome := by
  rw [run_bind]
  -- the account may differ after the first, but the second does not look at it
  rcases hx : x.run a with ⟨_ | v, b⟩
  · rw [hx] at ha
    rw [← ha]
    rfl
  · rw [hx] at ha
    rw [← ha]
    exact hf v ha.symm b

/-- **Two renderings in a row** return what the second does with what the first returns. -/
theorem outcome_bind {x : Render α} {f : α → Render β}
    (hf : ∀ v, x.outcome = .ok v → Steady (f v)) :
    (x >>= f).outcome = x.outcome >>= fun v => (f v).outcome :=
  fst_run_bind hf rfl

/-- Two steady renderings in a row are steady. -/
theorem steady_bind {x : Render α} {f : α → Render β} (hx : Steady x)
    (hf : ∀ v, x.outcome = .ok v → Steady (f v)) : Steady (x >>= f) := by
  intro a
  rw [fst_run_bind hf (hx a), outcome_bind hf]

/-- Only walking a stream is not steady. -/
theorem steady_inSequence : InSequence @Steady where
  pure := steady_pure
  throw _ _ := rfl
  note _ _ := rfl
  bind hx hf := steady_bind hx fun v _ => hf v

/-- **A row of steady renderings** returns what each of them returns. -/
theorem outcome_mapM {f : α → Render β} {l : List α} (hf : ∀ v ∈ l, Steady (f v)) :
    (l.mapM f).outcome = l.mapM fun v => (f v).outcome := by
  induction l with
  | nil => rfl
  | cons v vs ih =>
      have hvs : ∀ u ∈ vs, Steady (f u) := fun u hu => hf u (List.mem_cons_of_mem _ hu)
      rw [List.mapM_cons, List.mapM_cons, ← ih hvs]
      have hrest := steady_inSequence.mapM hvs
      rw [outcome_bind fun w _ => steady_bind hrest fun ws _ => steady_pure (w :: ws)]
      refine congrArg _ (funext fun w => ?_)
      rw [outcome_bind fun ws _ => steady_pure (w :: ws)]
      rfl

@[simp] theorem outcome_ofLimit (x : Except Limit α) :
    (ofLimit x).outcome = x.mapError .limit := by
  cases x <;> rfl

/-- Charging without a limit is steady. -/
theorem steady_charge (text : String) : Steady (charge none text) := fun _ => rfl

/-- Walking anything but a stream gives its pairs. -/
theorem walk_of_streamFree {v : Value} (h : StreamFree v) : walk v = pure v.pairs := by
  refine walk_eq_pure fun id items hv => ?_
  subst hv
  cases h

end Render

open Render

/-! ## Conditions -/

/-- **Testing a condition** returns its verdict. -/
theorem Condition.outcome_render (scope : Value) (c : Condition) :
    (c.render scope).outcome = (do
      let verdict ← (c.test? scope).mapError RenderError.limit
      return verdict.holds) := by
  rw [Condition.render]
  cases c.test? scope with
  | error l => rfl
  | ok verdict =>
      simp only [ofLimit, pure_bind]
      split <;> rfl

/-! ## Branches -/

section StreamFree

variable {P : ∀ α : Type, Render α → Prop} {limit : Option Int}

mutual

/-- **A property kept in sequence** that holds of charging holds of every branch that is rendered in a
scope without streams. -/
theorem Render.InSequence.branch (h : InSequence P) (hcharge : ∀ text, P Unit (charge limit text)) :
    ∀ (b : Branch) (scope : Value), StreamFree scope → P String (Branch.render limit b scope)
  | .text segments, scope, _ => h.segments hcharge scope segments
  | .conditional c children, scope, hscope => by
      refine h.bind (h.condition scope c) fun holds => ?_
      cases holds with
      | true => exact h.branches hcharge children scope hscope
      | false => exact h.pure ""
  | .repeated it children, scope, hscope => by
      rw [Branch.render]
      cases hv : scope.resolve it.collection with
      | error l => exact h.throw (.limit l)
      | ok v =>
          -- once the collection is resolved, walking it returns its pairs at once
          have hfree := hscope.resolve hv
          rw [Render.ofLimit, pure_bind, walk_of_streamFree hfree, pure_bind]
          refine h.bind (h.mapM fun pair hpair => ?_) fun parts => h.pure (String.join parts)
          exact h.branches hcharge children (it.bind scope pair)
            (hscope.iterationBind it (hfree.pairs pair hpair))
termination_by structural b => b

/-- Such a property holds of branches in a row. -/
theorem Render.InSequence.branches (h : InSequence P) (hcharge : ∀ text, P Unit (charge limit text)) :
    ∀ (bs : List Branch) (scope : Value), StreamFree scope → P String (Branch.renderAll limit bs scope)
  | [], _, _ => h.pure ""
  | b :: bs, scope, hscope => by
      refine h.bind (h.branch hcharge b scope hscope) fun first => ?_
      exact h.bind (h.branches hcharge bs scope hscope) fun rest => h.pure (first ++ rest)
termination_by structural bs => bs

end

end StreamFree

/-- **Rendering branches** is steady in a scope without streams. -/
theorem Branch.steady_renderAll (bs : List Branch) (scope : Value) (h : StreamFree scope) :
    Steady (Branch.renderAll none bs scope) :=
  steady_inSequence.branches steady_charge bs scope h

/-- What a conditional part returns. -/
theorem Branch.outcome_conditional {scope : Value} (h : StreamFree scope) (c : Condition)
    (children : List Branch) :
    (Branch.render none (.conditional c children) scope).outcome = (do
      let verdict ← (c.test? scope).mapError RenderError.limit
      if verdict.holds then (Branch.renderAll none children scope).outcome else .ok "") := by
  show (c.render scope >>= fun holds =>
    if holds then Branch.renderAll none children scope else pure "").outcome = _
  rw [outcome_bind, Condition.outcome_render]
  · cases (c.test? scope).mapError RenderError.limit with
    | error e => rfl
    | ok verdict => cases h : verdict.holds <;> simp [h]
  · intro holds _
    cases holds with
    | true => exact Branch.steady_renderAll children scope h
    | false => exact steady_pure ""

/-- What a repeated part returns. -/
theorem Branch.outcome_repeated {scope : Value} (h : StreamFree scope) (it : Iteration)
    (children : List Branch) :
    (Branch.render none (.repeated it children) scope).outcome = (do
      let v ← (scope.resolve it.collection).mapError RenderError.limit
      let parts ← v.pairs.mapM fun pair =>
        (Branch.renderAll none children (it.bind scope pair)).outcome
      return String.join parts) := by
  cases hv : scope.resolve it.collection with
  | error l =>
      rw [Branch.render, hv]
      rfl
  | ok v =>
      have hfree := h.resolve hv
      have hsteady : ∀ pair ∈ v.pairs, Steady (Branch.renderAll none children (it.bind scope pair)) :=
        fun pair hpair => Branch.steady_renderAll children _ (h.iterationBind it (hfree.pairs pair hpair))
      rw [Branch.render, hv]
      -- once the collection is resolved, only its walk and its rounds are left
      show (walk v >>= fun pairs => pairs.mapM (fun pair =>
        Branch.renderAll none children (it.bind scope pair)) >>= fun parts =>
          pure (String.join parts)).outcome = _
      rw [walk_of_streamFree hfree]
      show (v.pairs.mapM (fun pair => Branch.renderAll none children (it.bind scope pair)) >>=
        fun parts => pure (String.join parts)).outcome = _
      rw [outcome_bind fun parts _ => steady_pure (String.join parts), outcome_mapM hsteady]
      rfl

end Stencil
