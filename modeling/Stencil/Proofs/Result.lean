import Mathlib.Data.List.Basic

/-! # Computations that may fail

How the value or the error of a compound computation comes about from those of its parts.

* `bind_eq_ok_iff`, `bind_eq_error_iff` — one computation after another.
* `map_eq_ok_iff`, `mapError_eq_ok_iff` and their companions — a function on the result.
* `foldlM_eq_error_iff` — a row of steps fails at the first of them that does.
* `Agree` — two computations whose results are related. -/

namespace Stencil

variable {ε ε' α β : Type}

@[simp] theorem ok_bind (a : α) (f : α → Except ε β) : (Except.ok a >>= f) = f a := rfl

@[simp] theorem error_bind (e : ε) (f : α → Except ε β) : (Except.error e >>= f) = .error e := rfl

/-- A sequence has a value iff both its parts have. -/
theorem bind_eq_ok_iff {x : Except ε α} {f : α → Except ε β} {b : β} :
    x >>= f = .ok b ↔ ∃ a, x = .ok a ∧ f a = .ok b := by
  cases x <;> simp

/-- A sequence fails iff its first part does, or its second part after a value of the first. -/
theorem bind_eq_error_iff {x : Except ε α} {f : α → Except ε β} {e : ε} :
    x >>= f = .error e ↔ x = .error e ∨ ∃ a, x = .ok a ∧ f a = .error e := by
  cases x <;> simp

/-- A function of a result has a value iff the result is one. -/
theorem map_eq_ok_iff {x : Except ε α} {f : α → β} {b : β} :
    f <$> x = .ok b ↔ ∃ a, x = .ok a ∧ f a = b := by
  cases x <;> simp

/-- A function of a result fails as the result does. -/
theorem map_eq_error_iff {x : Except ε α} {f : α → β} {e : ε} :
    f <$> x = .error e ↔ x = .error e := by
  cases x <;> simp

/-- Renaming errors leaves values as they are. -/
theorem mapError_eq_ok_iff {x : Except ε α} {f : ε → ε'} {a : α} :
    x.mapError f = .ok a ↔ x = .ok a := by
  cases x <;> simp [Except.mapError]

/-- Renaming errors fails with a renamed error. -/
theorem mapError_eq_error_iff {x : Except ε α} {f : ε → ε'} {e : ε'} :
    x.mapError f = .error e ↔ ∃ d, x = .error d ∧ f d = e := by
  cases x <;> simp [Except.mapError]

/-- **The first failure of a row of steps.** A row of steps fails iff one of its steps does, from
the state that the steps before it lead to. -/
theorem foldlM_eq_error_iff {step : β → α → Except ε β} {l : List α} {b : β} {e : ε} :
    l.foldlM step b = .error e ↔ ∃ before a after c,
      l = before ++ a :: after ∧ before.foldlM step b = .ok c ∧ step c a = .error e := by
  induction l generalizing b with
  | nil =>
      constructor
      · intro h; cases h
      · rintro ⟨before, a, after, c, hl, -⟩; simp at hl
  | cons x xs ih =>
      rw [List.foldlM_cons, bind_eq_error_iff]
      constructor
      · rintro (hx | ⟨c, hx, hxs⟩)
        · exact ⟨[], x, xs, b, rfl, rfl, hx⟩
        · obtain ⟨before, a, after, d, rfl, hbefore, ha⟩ := ih.mp hxs
          exact ⟨x :: before, a, after, d, rfl, by rw [List.foldlM_cons, hx]; exact hbefore, ha⟩
      · rintro ⟨before, a, after, c, hl, hbefore, ha⟩
        cases before with
        | nil =>
            obtain ⟨rfl, rfl⟩ := List.cons.inj hl
            cases hbefore
            exact Or.inl ha
        | cons y ys =>
            obtain ⟨rfl, rfl⟩ := List.cons.inj hl
            rw [List.foldlM_cons, bind_eq_ok_iff] at hbefore
            obtain ⟨d, hd, hys⟩ := hbefore
            exact Or.inr ⟨d, hd, ih.mpr ⟨ys, a, after, c, rfl, hys, ha⟩⟩

/-! ## Two computations -/

/-- Whether two computations **agree** up to a relation: both return, and what they return is related, or
both fail with the same error. -/
inductive Agree (R : α → β → Prop) : Except ε α → Except ε β → Prop
  | ok {a : α} {b : β} (related : R a b) : Agree R (.ok a) (.ok b)
  | error (e : ε) : Agree R (.error e) (.error e)

namespace Agree

variable {γ δ : Type} {R : α → β → Prop} {S : γ → δ → Prop}

/-- A computation agrees with itself up to a reflexive relation. -/
theorem refl {R : α → α → Prop} (hR : ∀ a, R a a) (x : Except ε α) : Agree R x x := by
  cases x with
  | ok a => exact .ok (hR a)
  | error e => exact .error e

/-- **Two sequences agree** if their parts do. -/
theorem bind {x : Except ε α} {y : Except ε β} {f : α → Except ε γ} {g : β → Except ε δ}
    (h : Agree R x y) (hfg : ∀ a b, R a b → Agree S (f a) (g b)) : Agree S (x >>= f) (y >>= g) := by
  cases h with
  | ok hab => exact hfg _ _ hab
  | error e => exact .error e

/-- Computations that agree up to equality are equal. -/
theorem eq {x y : Except ε α} (h : Agree (· = ·) x y) : x = y := by
  cases h with
  | ok hab => rw [hab]
  | error e => rfl

end Agree

/-! ## Rows of computations -/

/-- A row of computations is the same if each of them is. -/
theorem mapM_congr {m : Type → Type} [Monad m] [LawfulMonad m] {f g : α → m β} {l : List α}
    (h : ∀ v ∈ l, f v = g v) : l.mapM f = l.mapM g := by
  induction l with
  | nil => rfl
  | cons v vs ih =>
      rw [List.mapM_cons, List.mapM_cons, h v List.mem_cons_self,
        ih fun u hu => h u (List.mem_cons_of_mem v hu)]

end Stencil
