import Mathlib.Data.List.Basic
import Stencil.Template

/-! # Runs of a rendering

What a rendering returns from an account, and the account it leaves.

* `Render.run_bind_eq_ok_iff` takes a run of two renderings in a row apart.
* `Render.InSequence` holds of the properties of renderings that are kept when they are put in a row;
  these hold of every segment and of every condition, and if they hold of charging, of every text branch.
* `Render.Free` is one of them: a rendering that charges for nothing. -/

namespace Stencil

namespace Render

variable {α β : Type}

/-- A rendering in two parts: after a value of the first, the second goes on from the account it
left. -/
theorem run_bind (x : Render α) (f : α → Render β) (a : Account) :
    (x >>= f).run a = match x.run a with
      | (.ok v, b) => (f v).run b
      | (.error e, b) => (.error e, b) := by
  show ExceptT.bindCont f (x.run a).1 (x.run a).2 = _
  rcases x.run a with ⟨_ | _, b⟩ <;> rfl

theorem run_bind_of_ok {x : Render α} {f : α → Render β} {a b : Account} {v : α}
    (h : x.run a = (.ok v, b)) : (x >>= f).run a = (f v).run b := by
  rw [run_bind, h]

/-- A rendering in two parts returns iff both parts do, one after the other. -/
theorem run_bind_eq_ok_iff {x : Render α} {f : α → Render β} {a c : Account} {w : β} :
    (x >>= f).run a = (.ok w, c) ↔ ∃ v b, x.run a = (.ok v, b) ∧ (f v).run b = (.ok w, c) := by
  rw [run_bind]
  rcases x.run a with ⟨_ | v, b⟩
  · constructor
    · intro h; cases h
    · rintro ⟨_, _, h, -⟩; cases h
  · constructor
    · intro h; exact ⟨v, b, rfl, h⟩
    · rintro ⟨_, _, h, hw⟩; cases h; exact hw

/-- Charging under a limit counts first, and fails if the count is then beyond the limit. -/
theorem run_charge_some (limit : Int) (text : String) (a : Account) :
    (charge (some limit) text).run a = if limit < (a.used + text.length : Nat) then
      (.error (.outputLimit limit), { a with used := a.used + text.length })
    else (.ok (), { a with used := a.used + text.length }) := by
  by_cases h : limit < (a.used + text.length : Nat)
  · rw [if_pos h]
    show (if limit < (a.used + text.length : Nat) then throw (.outputLimit limit)
      else pure () : Render Unit).run _ = _
    rw [if_pos h]
    rfl
  · rw [if_neg h]
    show (if limit < (a.used + text.length : Nat) then throw (.outputLimit limit)
      else pure () : Render Unit).run _ = _
    rw [if_neg h]
    rfl

/-- **Walking a stream** that was walked before gives nothing and changes nothing; else it gives the items,
and is recorded. -/
theorem run_walk_stream (id : Nat) (items : List Value) (a : Account) :
    (walk (.stream id items)).run a = if a.drained.contains id then (.ok [], a)
      else (.ok (Value.enumerate items), { a with drained := id :: a.drained }) := by
  by_cases h : a.drained.contains id = true
  · rw [if_pos h]
    show (if a.drained.contains id = true then pure [] else _ : Render _).run a = _
    rw [if_pos h]
    rfl
  · rw [if_neg h]
    show (if a.drained.contains id = true then pure [] else _ : Render _).run a = _
    rw [if_neg h]
    rfl

/-- Walking anything but a stream gives its pairs at once. -/
theorem walk_eq_pure {v : Value} (h : ∀ id items, v ≠ .stream id items) : walk v = pure v.pairs := by
  cases v with
  | stream id items => exact absurd rfl (h id items)
  | _ => rfl

/-! ## Properties kept in sequence -/

/-- **A property kept in sequence** holds of the renderings that return, fail or note something at
once, and of two in a row if it holds of both. -/
structure InSequence (P : ∀ α : Type, Render α → Prop) : Prop where
  /-- It holds of what returns at once. -/
  pure : ∀ {α : Type} (v : α), P α (pure v)
  /-- It holds of what fails at once. -/
  throw : ∀ {α : Type} (e : RenderError), P α (throw e)
  /-- It holds of noting an event. -/
  note : ∀ e : Event, P Unit (note e)
  /-- It holds of two renderings in a row. -/
  bind : ∀ {α β : Type} {x : Render α} {f : α → Render β},
    P α x → (∀ v, P β (f v)) → P β (x >>= f)

namespace InSequence

variable {P : ∀ α : Type, Render α → Prop}

/-- Such a property holds of a row if it holds of each of its parts. -/
theorem mapM (h : InSequence P) {f : α → Render β} {l : List α} (hf : ∀ v ∈ l, P β (f v)) :
    P (List β) (l.mapM f) := by
  induction l with
  | nil => exact h.pure []
  | cons v vs ih =>
      rw [List.mapM_cons]
      refine h.bind (hf v List.mem_cons_self) fun w => ?_
      exact h.bind (ih fun u hu => hf u (List.mem_cons_of_mem _ hu)) fun ws => h.pure (w :: ws)

/-- Such a property holds of every reading that may be refused. -/
theorem ofLimit (h : InSequence P) (x : Except Limit α) : P α (ofLimit x) := by
  cases x with
  | ok v => exact h.pure v
  | error l => exact h.throw (.limit l)

/-- **Such a property holds of every segment.** -/
theorem segment (h : InSequence P) (scope : Value) (s : Segment) : P String (s.render scope) := by
  cases s with
  | literal text => exact h.pure text
  | placeholder path raw =>
      refine h.bind (h.ofLimit _) fun v => ?_
      refine h.bind (h.ofLimit _) fun text => ?_
      cases text with
      | some t => exact h.pure t
      | none => exact h.bind (h.note _) fun _ => h.pure raw

/-- **Such a property holds of every condition.** -/
theorem condition (h : InSequence P) (scope : Value) (c : Condition) : P Bool (c.render scope) := by
  refine h.bind (h.ofLimit _) fun verdict => ?_
  dsimp only
  split
  · exact h.bind (h.note _) fun _ => h.pure verdict.holds
  · exact h.bind (h.pure ()) fun _ => h.pure verdict.holds

/-- Such a property holds of every text branch, if it holds of charging. -/
theorem segments (h : InSequence P) {limit : Option Int} (hcharge : ∀ text, P Unit (charge limit text))
    (scope : Value) (segments : List Segment) : P String (Segment.renderAll limit scope segments) := by
  refine h.bind (h.mapM fun s _ => h.segment scope s) fun parts => ?_
  exact h.bind (hcharge _) fun _ => h.pure (String.join parts)

end InSequence

/-! ## Renderings that charge for nothing -/

/-- A rendering is **free** if it leaves the number of charged characters as it is. -/
def Free (x : Render α) : Prop := ∀ a v b, x.run a = (.ok v, b) → b.used = a.used

/-- Only charging is not free. -/
theorem free_inSequence : InSequence @Free where
  pure v a w b h := by
    cases h
    rfl
  throw e a w b h := by
    cases h
  note e a w b h := by
    cases h
    rfl
  bind hx hf a w c h := by
    obtain ⟨v, b, hv, hw⟩ := run_bind_eq_ok_iff.mp h
    rw [hf v b w c hw, hx a v b hv]

/-- Walking a collection is free. -/
theorem free_walk (v : Value) : Free (walk v) := by
  cases v with
  | stream id items =>
      intro a w b h
      -- only the record of drained streams changes
      rw [run_walk_stream] at h
      split at h <;> cases h <;> rfl
  | _ => exact free_inSequence.pure _

end Render

end Stencil
