import Stencil.Proofs.Markup.Seam
import Stencil.Proofs.Render.Steady
import Stencil.Proofs.Tree.Join

/-! # Rendering rows that meet

Rendering a row of segments or branches returns their texts, one after the other, and so it does not
matter whether two texts that meet are one or two.

* `concat` is the text of a row; `concat_seam` says what two rows that meet give together.
* `Segment.outcome_renderAll` and `Branch.outcome_renderAll`: this is what rendering returns.
* `Segment.run_renderAll_seam`: a literal between two rows of segments is rendered as it is, under any
  limit.
* `Branch.outcome_seam`: **rendering two rows that meet** returns what rendering the one and then the
  other does. -/

namespace Stencil

/-! ## Texts in a row -/

section Texts

variable {ε α : Type}

/-- **One text after another**, each of which may fail. -/
def inTurn (r r' : Except ε String) : Except ε String := do
  let s ← r
  let t ← r'
  return s ++ t

/-- Nothing, and then a text. -/
@[simp] theorem inTurn_empty_left (r : Except ε String) : inTurn (.ok "") r = r := by
  cases r with
  | error e => rfl
  | ok s => exact congrArg Except.ok String.empty_append

/-- A text, and then nothing. -/
@[simp] theorem inTurn_empty_right (r : Except ε String) : inTurn r (.ok "") = r := by
  cases r with
  | error e => rfl
  | ok s => exact congrArg Except.ok String.append_empty

/-- Three texts in turn. -/
theorem inTurn_assoc (r r' r'' : Except ε String) :
    inTurn (inTurn r r') r'' = inTurn r (inTurn r' r'') := by
  cases r with
  | error e => rfl
  | ok s =>
      cases r' with
      | error e => rfl
      | ok t =>
          cases r'' with
          | error e => rfl
          | ok u => exact congrArg Except.ok String.append_assoc

/-- Two texts in turn are both there. -/
theorem inTurn_eq_ok_iff {r r' : Except ε String} {out : String} :
    inTurn r r' = .ok out ↔ ∃ x y, r = .ok x ∧ r' = .ok y ∧ out = x ++ y := by
  constructor
  · intro h
    obtain ⟨x, hx, hrest⟩ := bind_eq_ok_iff.mp h
    obtain ⟨y, hy, hout⟩ := bind_eq_ok_iff.mp hrest
    exact ⟨x, y, hx, hy, (Except.ok.inj hout).symm⟩
  · rintro ⟨x, y, rfl, rfl, rfl⟩
    rfl

/-- **The texts of a row**, one after another. -/
def concat (out : α → Except ε String) : List α → Except ε String
  | [] => .ok ""
  | v :: vs => inTurn (out v) (concat out vs)

variable {out : α → Except ε String}

/-- The texts of a row are those of its items, joined. -/
theorem mapM_join (vs : List α) :
    (do let parts ← vs.mapM out; return String.join parts) = concat out vs := by
  induction vs with
  | nil => rfl
  | cons v vs ih =>
      rw [List.mapM_cons, concat, ← ih]
      cases out v with
      | error e => rfl
      | ok s =>
          cases vs.mapM out with
          | error e => rfl
          | ok parts => exact congrArg Except.ok String.join_cons

/-- **The texts of two rows that meet**, where the text of two fused items is that of both. -/
theorem concat_seam {fuse : α → α → Option α}
    (hfuse : ∀ v w u, fuse v w = some u → out u = inTurn (out v) (out w)) (vs ws : List α) :
    concat out (seam fuse vs ws) = inTurn (concat out vs) (concat out ws) := by
  -- the induction is on the first row, down to its last item
  induction vs with
  | nil => exact (inTurn_empty_left _).symm
  | cons v vs ih =>
      cases vs with
      | cons v' vs =>
          show inTurn (out v) (concat out (seam fuse (v' :: vs) ws)) = _
          rw [ih, ← inTurn_assoc]
          rfl
      | nil =>
          cases ws with
          | nil => exact (inTurn_empty_right _).symm
          | cons w ws =>
              -- the rows meet here
              cases h : fuse v w with
              | none =>
                  simp only [seam, h, concat, inTurn_empty_right]
              | some u =>
                  simp only [seam, h, concat, inTurn_empty_right]
                  rw [hfuse v w u h, inTurn_assoc]

end Texts

open Render

/-! ## Segments and branches -/

/-- What a text branch returns. -/
theorem Segment.outcome_renderAll (scope : Value) (segments : List Segment) :
    (Segment.renderAll none scope segments).outcome =
      concat (fun s => (s.render scope).outcome) segments := by
  rw [← mapM_join, ← outcome_mapM fun s _ => steady_inSequence.segment scope s]
  refine outcome_bind fun parts _ => ?_
  exact steady_bind (steady_charge _) fun _ _ => steady_pure (String.join parts)

/-- **What a row of branches returns.** -/
theorem Branch.outcome_renderAll {scope : Value} (h : StreamFree scope) (bs : List Branch) :
    (Branch.renderAll none bs scope).outcome =
      concat (fun b => (Branch.render none b scope).outcome) bs := by
  induction bs with
  | nil => rfl
  | cons b bs ih =>
      have hrest : ∀ first,
          Steady (Branch.renderAll none bs scope >>= fun rest => pure (first ++ rest)) :=
        fun first => steady_bind (Branch.steady_renderAll bs scope h) fun rest _ => steady_pure _
      rw [Branch.renderAll, outcome_bind fun first _ => hrest first, concat, ← ih]
      refine congrArg _ (funext fun first => ?_)
      exact outcome_bind fun rest _ => steady_pure _

/-- Two literal runs that became one have the text of both. -/
theorem Segment.outcome_fuse (scope : Value) (s t u : Segment) (h : Segment.fuse s t = some u) :
    (u.render scope).outcome = inTurn (s.render scope).outcome (t.render scope).outcome := by
  cases s with
  | placeholder path raw => cases h
  | literal a =>
      cases t with
      | placeholder path raw => cases h
      | literal b => cases h; rfl

/-- **What a row of segments returns**, when it is rendered under any limit and returns at all. -/
theorem Segment.concat_of_run {limit : Option Int} {scope : Value} {segments : List Segment}
    {a b : Account} {out : String} (h : (Segment.renderAll limit scope segments).run a = (.ok out, b)) :
    concat (fun s => (s.render scope).outcome) segments = .ok out := by
  obtain ⟨parts, b', hparts, hrest⟩ := run_bind_eq_ok_iff.mp h
  obtain ⟨-, b'', -, hpure⟩ := run_bind_eq_ok_iff.mp hrest
  obtain rfl : String.join parts = out := by cases hpure; rfl
  have hsteady := steady_inSequence.mapM fun s (_ : s ∈ segments) => steady_inSequence.segment scope s
  have houtcome := hsteady a
  rw [hparts, outcome_mapM fun s _ => steady_inSequence.segment scope s] at houtcome
  rw [← mapM_join, ← houtcome]
  rfl

/-- **A literal segment between two rows** is rendered as it is, between what these rows give. -/
theorem Segment.run_renderAll_seam {limit : Option Int} {scope : Value} {front back : List Segment}
    {mid out : String} {a b : Account}
    (h : (Segment.renderAll limit scope (seam fuse front (seam fuse [.literal mid] back))).run a =
      (.ok out, b)) :
    ∃ x y, (Segment.renderAll none scope front).outcome = .ok x ∧
      (Segment.renderAll none scope back).outcome = .ok y ∧ out = x ++ mid ++ y := by
  -- the text of two rows that meet is the text of both
  have hout := concat_of_run h
  rw [concat_seam (outcome_fuse scope), concat_seam (outcome_fuse scope)] at hout
  obtain ⟨x, my, hx, hmy, rfl⟩ := inTurn_eq_ok_iff.mp hout
  obtain ⟨m, y, hm, hy, rfl⟩ := inTurn_eq_ok_iff.mp hmy
  obtain rfl := Except.ok.inj ((inTurn_empty_right (.ok mid)).symm.trans hm)
  refine ⟨x, y, ?_, ?_, String.append_assoc.symm⟩
  · rw [outcome_renderAll, hx]
  · rw [outcome_renderAll, hy]

/-- Two text branches that became one have the text of both. -/
theorem Branch.outcome_fuse (scope : Value) (b c d : Branch) (h : Branch.fuse b c = some d) :
    (Branch.render none d scope).outcome =
      inTurn (Branch.render none b scope).outcome (Branch.render none c scope).outcome := by
  cases b with
  | text segments =>
      cases c with
      | text segments' =>
          cases h
          simp only [Branch.render, Segment.outcome_renderAll]
          exact concat_seam (Segment.outcome_fuse scope) segments segments'
      | _ => cases h
  | _ => cases h

/-- **Rendering two rows that meet** is rendering the one and then the other. -/
theorem Branch.outcome_seam {scope : Value} (h : StreamFree scope) (bs cs : List Branch) :
    (Branch.renderAll none (seam Branch.fuse bs cs) scope).outcome =
      inTurn (Branch.renderAll none bs scope).outcome (Branch.renderAll none cs scope).outcome := by
  rw [Branch.outcome_renderAll h, Branch.outcome_renderAll h, Branch.outcome_renderAll h]
  exact concat_seam (Branch.outcome_fuse scope) bs cs

end Stencil
