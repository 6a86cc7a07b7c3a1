import Stencil.Condition.Operator
import Stencil.Proofs.Value.Equality

/-! # The order of well-formed values

How the standing of two values to each other behaves when they change places, and between which values
there always is an order.

* `Value.compare_swap`: exchanging two well-formed values reverses their standing, at any depth.
* `Standing.Decided` and its lemmas: texts, bytes and numbers other than NaN have an order.
* `Number.position?_of_ofText?`: no text is read as a NaN. -/

namespace Stencil

/-! ## Linear orders -/

namespace Standing

/-- Whether a standing **decides** between before, after and at the same place. -/
def Decided (s : Standing) : Prop := s = .less ∨ s = .same ∨ s = .greater

section Linear

variable {α : Type} [BEq α] [LT α] [DecidableLT α]

/-- Exchanging two members of a linear order reverses their standing. -/
theorem linear_swap [LawfulBEq α] [Std.Asymm fun a b : α => a < b]
    [Std.Trichotomous fun a b : α => a < b] (a b : α) :
    (if a == b then same else if a < b then less else greater).swap =
      if b == a then same else if b < a then less else greater := by
  by_cases heq : a = b
  · simp [heq, swap]
  · have heq' : ¬ b = a := fun h => heq h.symm
    by_cases hlt : a < b
    · have hnot : ¬ b < a := Std.Asymm.asymm a b hlt
      simp [heq, heq', hlt, hnot, swap]
    · have hgt : b < a := by
        by_contra hnot
        exact heq (Std.Trichotomous.trichotomous a b hlt hnot)
      simp [heq, heq', hlt, hgt, swap]

/-- Two members of a linear order always have a standing. -/
theorem linear_decided (a b : α) :
    (if a == b then same else if a < b then less else greater).Decided := by
  split
  · exact .inr (.inl rfl)
  · split
    · exact .inl rfl
    · exact .inr (.inr rfl)

end Linear

end Standing

/-! ## Numbers -/

/-- Two points of the number line always have a standing. -/
theorem Extended.compare_decided (a b : Extended) : (a.compare b).Decided := by
  unfold Extended.compare
  split
  · exact .inr (.inl rfl)
  · split
    · exact .inl rfl
    · exact .inr (.inr rfl)

/-- Two numbers that stand for points have a standing. -/
theorem Number.compare_decided {m n : Number} (hm : m.position? ≠ none) (hn : n.position? ≠ none) :
    (m.compare n).Decided := by
  obtain ⟨p, hp⟩ := Option.ne_none_iff_exists'.mp hm
  obtain ⟨q, hq⟩ := Option.ne_none_iff_exists'.mp hn
  rw [Number.compare, hp, hq]
  exact Extended.compare_decided p q

namespace Double

/-- An infinity and a finite double stand for points. -/
theorem position?_ite (c : Prop) [Decidable c] (negative : Bool) (m : Nat) (q : Int) :
    (if c then infinite negative else finite negative m q).position? ≠ none := by
  split
  · cases negative <;> simp [position?]
  · simp [position?]

/-- A rounded ratio stands for a point. -/
theorem position?_ofRatio (negative : Bool) (num den : Nat) : (ofRatio negative num den).position? ≠ none := by
  unfold ofRatio
  split
  · simp [zero, position?]
  · exact position?_ite _ _ _ _

/-- A rounded decimal stands for a point. -/
theorem position?_ofDecimal (negative : Bool) (m : Nat) (e : Int) :
    (ofDecimal negative m e).position? ≠ none := by
  unfold ofDecimal
  repeat' split
  · simp [zero, position?]
  · cases negative <;> simp [position?]
  · simp [zero, position?]
  · exact position?_ofRatio _ _ _
  · exact position?_ofRatio _ _ _

end Double

/-- **No numeral means a NaN**: what a text is read as stands for a point. -/
theorem Number.position?_of_ofText? {s : String} {n : Number} (h : Number.ofText? s = .ok (some n)) :
    n.position? ≠ none := by
  unfold Number.ofText? at h
  split at h
  · cases h
  · rename_i numeral _
    obtain ⟨m, hm, hsome⟩ := map_eq_ok_iff.mp h
    cases hsome
    cases numeral with
    | integer negative ds =>
        obtain ⟨k, -, rfl⟩ := map_eq_ok_iff.mp hm
        simp [Number.position?]
    | decimal negative whole fraction e =>
        cases hm
        exact Double.position?_ofDecimal _ _ _

/-! ## Values -/

namespace Value

variable {a b : Value}

/-- An atom is compared as such. -/
theorem compare_of_isAtom (ha : a.isAtom = true) : compare a b = atomCompare a b := by
  cases a with
  | list | tuple | map | object => cases ha
  | _ => rfl

/-- Every value is compared with an atom as an atom. -/
theorem compare_of_isAtom_right (hb : b.isAtom = true) : compare a b = atomCompare a b := by
  cases b with
  | list | tuple | map | object => cases hb
  | _ => cases a <;> rfl

/-- Exchanging two atoms. -/
theorem atomCompare_swap (a b : Value) : (atomCompare a b).swap = atomCompare b a := by
  unfold atomCompare
  cases a.number? <;> cases b.number?
  · dsimp only
    cases a <;> cases b <;> first | rfl | exact Standing.linear_swap _ _
  · rfl
  · rfl
  · exact Number.compare_swap _ _

/-- Exchanging a value and an atom. -/
theorem compare_swap_of_isAtom (h : a.isAtom = true ∨ b.isAtom = true) :
    (compare a b).swap = compare b a := by
  have hab : compare a b = atomCompare a b := h.elim compare_of_isAtom compare_of_isAtom_right
  have hba : compare b a = atomCompare b a := h.elim compare_of_isAtom_right compare_of_isAtom
  rw [hab, hba, atomCompare_swap]

/-- Exchanging two rows, when it can be done with their items. -/
theorem itemsCompare_swap {xs ys : List Value}
    (hequal : ∀ x ∈ xs, ∀ y ∈ ys, equal x y = equal y x)
    (hswap : ∀ x ∈ xs, ∀ y ∈ ys, (compare x y).swap = compare y x) :
    (itemsCompare xs ys).swap = itemsCompare ys xs := by
  induction xs generalizing ys with
  | nil => cases ys <;> rfl
  | cons x xs ih =>
      cases ys with
      | nil => rfl
      | cons y ys =>
          rw [itemsCompare, itemsCompare, ← hequal x List.mem_cons_self y List.mem_cons_self]
          split
          · refine ih (fun v hv w hw => ?_) fun v hv w hw => ?_
            · exact hequal v (List.mem_cons_of_mem _ hv) w (List.mem_cons_of_mem _ hw)
            · exact hswap v (List.mem_cons_of_mem _ hv) w (List.mem_cons_of_mem _ hw)
          · exact hswap x List.mem_cons_self y List.mem_cons_self

/-- **Exchanging** two well-formed values reverses their standing. -/
theorem compare_swap (ha : a.WellFormed) (hb : b.WellFormed) : (compare a b).swap = compare b a := by
  induction a using Value.induction generalizing b with
  | atom v hv => exact compare_swap_of_isAtom (.inl hv)
  | list items ih =>
      cases ha with
      | atom ha => cases ha
      | list hitems =>
          cases hb with
          | list hothers =>
              exact itemsCompare_swap (fun x hx y hy => equal_comm (hitems x hx) (hothers y hy))
                fun x hx y hy => ih x hx (hitems x hx) (hothers y hy)
          | atom hatom => exact compare_swap_of_isAtom (.inr hatom)
          | _ => rfl
  | tuple items ih =>
      cases ha with
      | atom ha => cases ha
      | tuple hitems =>
          cases hb with
          | tuple hothers =>
              exact itemsCompare_swap (fun x hx y hy => equal_comm (hitems x hx) (hothers y hy))
                fun x hx y hy => ih x hx (hitems x hx) (hothers y hy)
          | atom hatom => exact compare_swap_of_isAtom (.inr hatom)
          | _ => rfl
  | map entries => cases b <;> rfl
  | object attributes => cases b <;> rfl

end Value

end Stencil
