import Mathlib.Data.List.Perm.Basic

/-! # Matching two rows

Rows whose items are related one by one, in their order or in some order.

* `forall₂_pairs_iff`: rows of pairs are related by their first and by their second parts.
* `Matched`: one row, in some order, is related to another one; with what is needed of an equivalence.
* `Matched.of_exists`: rows match if the items of one have partners of their own in the other. -/

namespace Stencil

/-- Rows of pairs are related if their first parts are and their second parts are. -/
theorem forall₂_pairs_iff {α β γ δ : Type} {R : α → γ → Prop} {S : β → δ → Prop} {es : List (α × β)}
    {fs : List (γ × δ)} : List.Forall₂ (fun e f => R e.1 f.1 ∧ S e.2 f.2) es fs ↔
      List.Forall₂ R (es.map Prod.fst) (fs.map Prod.fst) ∧
        List.Forall₂ S (es.map Prod.snd) (fs.map Prod.snd) := by
  rw [List.forall₂_map_left_iff, List.forall₂_map_right_iff, List.forall₂_map_left_iff,
    List.forall₂_map_right_iff]
  constructor
  · intro h
    exact ⟨h.imp fun _ _ hef => hef.1, h.imp fun _ _ hef => hef.2⟩
  · rintro ⟨hfirst, hsecond⟩
    exact List.Forall₂.mp (fun _ _ h k => ⟨h, k⟩) hfirst hsecond

/-- Whether two rows **match**: one of them, in some order, is related to the other place by place. -/
def Matched {α β : Type} (R : α → β → Prop) (xs : List α) (zs : List β) : Prop :=
  ∃ ys, List.Forall₂ R xs ys ∧ ys.Perm zs

namespace Matched

variable {α β γ : Type} {R : α → β → Prop}

/-- Relating two rows in another way, place by place. -/
theorem forall₂_of_forall₂ {S : α → β → Prop} {xs : List α} {ys : List β} (h : List.Forall₂ R xs ys)
    (himp : ∀ x ∈ xs, ∀ y, R x y → S x y) : List.Forall₂ S xs ys := by
  induction h with
  | nil => exact .nil
  | cons hxy _ ih =>
      refine .cons (himp _ List.mem_cons_self _ hxy) (ih fun x hx => ?_)
      exact himp x (List.mem_cons_of_mem _ hx)

/-- Exchanging two rows that are related place by place. -/
theorem forall₂_symm {S : β → α → Prop} {xs : List α} {ys : List β} (h : List.Forall₂ R xs ys)
    (hsymm : ∀ x ∈ xs, ∀ y, R x y → S y x) : List.Forall₂ S ys xs :=
  (forall₂_of_forall₂ h hsymm).flip

/-- Composing rows that are related place by place. -/
theorem forall₂_trans {S : β → γ → Prop} {T : α → γ → Prop} {xs : List α} {ys : List β} {zs : List γ}
    (h : List.Forall₂ R xs ys) (k : List.Forall₂ S ys zs)
    (htrans : ∀ x ∈ xs, ∀ y z, R x y → S y z → T x z) : List.Forall₂ T xs zs := by
  induction h generalizing zs with
  | nil => cases k; exact .nil
  | cons hxy _ ih =>
      cases k with
      | cons hyz k =>
          refine .cons (htrans _ List.mem_cons_self _ _ hxy hyz) (ih k fun x hx => ?_)
          exact htrans x (List.mem_cons_of_mem _ hx)

/-- Every item of a row is related to one of the other row. -/
theorem exists_of_forall₂ {xs : List α} {ys : List β} (h : List.Forall₂ R xs ys) {x : α} (hx : x ∈ xs) :
    ∃ y ∈ ys, R x y := by
  induction h with
  | nil => cases hx
  | cons hxy _ ih =>
      rcases List.mem_cons.mp hx with rfl | hx
      · exact ⟨_, List.mem_cons_self, hxy⟩
      · obtain ⟨y, hy, hxy⟩ := ih hx
        exact ⟨y, List.mem_cons_of_mem _ hy, hxy⟩

/-- A row matches itself. -/
theorem refl {R : α → α → Prop} {xs : List α} (hrefl : ∀ x ∈ xs, R x x) : Matched R xs xs :=
  ⟨xs, List.forall₂_same.mpr hrefl, .refl xs⟩

/-- Exchanging two rows that match. -/
theorem symm {S : β → α → Prop} {xs : List α} {zs : List β} (h : Matched R xs zs)
    (hsymm : ∀ x ∈ xs, ∀ y, R x y → S y x) : Matched S zs xs := by
  obtain ⟨ys, hxy, hperm⟩ := h
  exact List.perm_comp_forall₂ hperm.symm (forall₂_symm hxy hsymm)

/-- Composing matches. -/
theorem trans {S : β → γ → Prop} {T : α → γ → Prop} {xs : List α} {ys : List β} {zs : List γ}
    (h : Matched R xs ys) (k : Matched S ys zs)
    (htrans : ∀ x ∈ xs, ∀ y z, R x y → S y z → T x z) : Matched T xs zs := by
  obtain ⟨ys', hxy, hys⟩ := h
  obtain ⟨zs', hyz, hzs⟩ := k
  obtain ⟨ws, hyw, hws⟩ := List.perm_comp_forall₂ hys hyz
  exact ⟨ws, forall₂_trans hxy hyw htrans, hws.trans hzs⟩

/-- Rows that match are equally long. -/
theorem length_eq {xs : List α} {ys : List β} (h : Matched R xs ys) : xs.length = ys.length := by
  obtain ⟨zs, hxz, hperm⟩ := h
  exact hxz.length_eq.trans hperm.length_eq

/-- Every item of a row is related to one of a row that it matches. -/
theorem exists_of_mem {xs : List α} {ys : List β} (h : Matched R xs ys) {x : α} (hx : x ∈ xs) :
    ∃ y ∈ ys, R x y := by
  obtain ⟨zs, hxz, hperm⟩ := h
  obtain ⟨y, hy, hxy⟩ := exists_of_forall₂ hxz hx
  exact ⟨y, hperm.subset hy, hxy⟩

/-- **Rows of one length match** if every item of the first has a partner in the second, and no two of
them share one. -/
theorem of_exists {xs : List α} {ys : List β} (hlength : xs.length = ys.length)
    (hpartner : ∀ x ∈ xs, ∃ y ∈ ys, R x y)
    (hapart : xs.Pairwise fun w x => ∀ y, R w y → ¬ R x y) : Matched R xs ys := by
  induction xs generalizing ys with
  | nil =>
      rw [List.eq_nil_of_length_eq_zero hlength.symm]
      exact ⟨[], .nil, .nil⟩
  | cons x xs ih =>
      -- the partner of the first item is taken out of the row; all others have theirs in what is left
      obtain ⟨y, hy, hxy⟩ := hpartner x List.mem_cons_self
      obtain ⟨before, after, rfl⟩ := List.append_of_mem hy
      obtain ⟨hfirst, hapart⟩ := List.pairwise_cons.mp hapart
      have hrest : xs.length = (before ++ after).length := by
        simp only [List.length_cons, List.length_append] at hlength ⊢
        omega
      have hleft : ∀ w ∈ xs, ∃ z ∈ before ++ after, R w z := by
        intro w hw
        obtain ⟨z, hz, hwz⟩ := hpartner w (List.mem_cons_of_mem _ hw)
        have hne : z ≠ y := fun h => hfirst w hw y hxy (h ▸ hwz)
        refine ⟨z, ?_, hwz⟩
        simpa [hne] using hz
      obtain ⟨zs, hforall, hperm⟩ := ih hrest hleft hapart
      exact ⟨y :: zs, .cons hxy hforall, (hperm.cons y).trans List.perm_middle.symm⟩

end Matched

end Stencil
