import Stencil.Proofs.Render.Run

/-! # Rendering under a limit

A limit on the output cuts a rendering off, and does nothing else.

* `Capped` relates a rendering without a limit to the same rendering under one: they agree as long as
  the characters charged keep to the limit, and the second fails as soon as they do not. It is kept by
  sequences (`capped_bind`) and rows (`capped_mapM`), and so by all branches (`Branch.capped_render`).
* `Branch.used_render` says that without a limit exactly the characters of the output are charged.
* `Template.render_limited` puts both together. -/

namespace Stencil

namespace Render

variable {α β : Type}

/-- **One rendering is another under a limit.** The first never lowers the number of charged
characters; as long as that keeps to the limit the second does the same, and otherwise it fails with
the limit. -/
def Capped (limit : Int) (x y : Render α) : Prop :=
  ∀ a v b, x.run a = (.ok v, b) → a.used ≤ b.used ∧ ((a.used : Int) ≤ limit →
    ((b.used : Int) ≤ limit → y.run a = (.ok v, b)) ∧
    (limit < b.used → (y.run a).1 = .error (.outputLimit limit)))

/-- A free rendering is itself under every limit. -/
theorem Free.capped {x : Render α} (hx : Free x) (limit : Int) : Capped limit x x := by
  intro a v b h
  have hused := hx a v b h
  refine ⟨by omega, fun _ => ⟨fun _ => h, fun hlt => ?_⟩⟩
  omega

/-- **Sequences keep a limit.** If the first part goes beyond it, the second is never reached. -/
theorem capped_bind {limit : Int} {x y : Render α} {f g : α → Render β} (hxy : Capped limit x y)
    (hfg : ∀ v, Capped limit (f v) (g v)) : Capped limit (x >>= f) (y >>= g) := by
  intro a w c h
  obtain ⟨v, b, hx, hf⟩ := run_bind_eq_ok_iff.mp h
  obtain ⟨hab, hfirst⟩ := hxy a v b hx
  obtain ⟨hbc, hsecond⟩ := hfg v b w c hf
  refine ⟨Nat.le_trans hab hbc, fun ha => ?_⟩
  -- the limit is exceeded in the first part or not before the second
  by_cases hb : (b.used : Int) ≤ limit
  · have hy := (hfirst ha).1 hb
    rw [run_bind_of_ok hy]
    exact hsecond hb
  · have hy := (hfirst ha).2 (by omega)
    refine ⟨fun hc => by omega, fun _ => ?_⟩
    rw [run_bind]
    rcases hrun : y.run a with ⟨r, d⟩
    rw [hrun] at hy
    obtain rfl : r = .error (.outputLimit limit) := hy
    rfl

/-- Rows keep a limit. -/
theorem capped_mapM {limit : Int} {f g : α → Render β} (l : List α)
    (hfg : ∀ v, Capped limit (f v) (g v)) : Capped limit (l.mapM f) (l.mapM g) := by
  induction l with
  | nil => exact (free_inSequence.pure []).capped limit
  | cons v vs ih =>
      rw [List.mapM_cons, List.mapM_cons]
      exact capped_bind (hfg v) fun w => capped_bind ih fun ws =>
        (free_inSequence.pure (w :: ws)).capped limit

/-- Charging for a text is where a limit takes hold. -/
theorem capped_charge (limit : Int) (text : String) :
    Capped limit (charge none text) (charge (some limit) text) := by
  intro a v b h
  cases h
  refine ⟨Nat.le_add_right _ _, fun _ => ⟨fun hle => ?_, fun hlt => ?_⟩⟩
  · rw [run_charge_some, if_neg (Int.not_lt.mpr hle)]
  · rw [run_charge_some, if_pos hlt]

end Render

open Render

/-- Rendering segments is free. -/
theorem Segment.free_mapM (scope : Value) (segments : List Segment) :
    Free (segments.mapM fun s => s.render scope) :=
  free_inSequence.mapM fun s _ => free_inSequence.segment scope s

/-- A text branch keeps a limit. -/
theorem Segment.capped_renderAll (limit : Int) (scope : Value) (segments : List Segment) :
    Capped limit (Segment.renderAll none scope segments)
      (Segment.renderAll (some limit) scope segments) := by
  refine capped_bind ((Segment.free_mapM scope segments).capped limit) fun parts => ?_
  exact capped_bind (capped_charge limit _) fun _ =>
    (free_inSequence.pure (String.join parts)).capped limit

mutual

/-- **A branch keeps a limit.** -/
theorem Branch.capped_render (limit : Int) : ∀ (b : Branch) (scope : Value),
    Capped limit (Branch.render none b scope) (Branch.render (some limit) b scope)
  | .text segments, scope => Segment.capped_renderAll limit scope segments
  | .conditional c children, scope => by
      refine capped_bind ((free_inSequence.condition scope c).capped limit) fun holds => ?_
      cases holds with
      | true => exact Branch.capped_renderAll limit children scope
      | false => exact (free_inSequence.pure "").capped limit
  | .repeated it children, scope => by
      refine capped_bind ((free_inSequence.ofLimit _).capped limit) fun v => ?_
      refine capped_bind ((free_walk v).capped limit) fun pairs => ?_
      refine capped_bind (capped_mapM pairs fun pair => ?_) fun parts =>
        (free_inSequence.pure (String.join parts)).capped limit
      exact Branch.capped_renderAll limit children (it.bind scope pair)
termination_by structural b => b

/-- A row of branches keeps a limit. -/
theorem Branch.capped_renderAll (limit : Int) : ∀ (bs : List Branch) (scope : Value),
    Capped limit (Branch.renderAll none bs scope) (Branch.renderAll (some limit) bs scope)
  | [], _ => (free_inSequence.pure "").capped limit
  | b :: bs, scope => by
      refine capped_bind (Branch.capped_render limit b scope) fun first => ?_
      refine capped_bind (Branch.capped_renderAll limit bs scope) fun rest => ?_
      exact (free_inSequence.pure (first ++ rest)).capped limit
termination_by structural bs => bs

end

/-! ## What is charged without a limit -/

/-- A row of renderings that each charge for their own output charges for all of it. -/
theorem Render.used_mapM {α : Type} {f : α → Render String}
    (hf : ∀ v a s b, (f v).run a = (.ok s, b) → b.used = a.used + s.length) (l : List α)
    {a b : Account} {parts : List String} (h : (l.mapM f).run a = (.ok parts, b)) :
    b.used = a.used + (String.join parts).length := by
  induction l generalizing a parts with
  | nil =>
      cases h
      rfl
  | cons v vs ih =>
      rw [List.mapM_cons] at h
      obtain ⟨s, c, hv, h⟩ := run_bind_eq_ok_iff.mp h
      obtain ⟨ss, d, hvs, h⟩ := run_bind_eq_ok_iff.mp h
      cases h
      rw [ih hvs, hf v a s c hv, String.join_cons, String.length_append, Nat.add_assoc]

/-- A text branch charges for its output. -/
theorem Segment.used_renderAll {scope : Value} {segments : List Segment} {a b : Account}
    {s : String} (h : (Segment.renderAll none scope segments).run a = (.ok s, b)) :
    b.used = a.used + s.length := by
  obtain ⟨parts, c, hparts, h⟩ := run_bind_eq_ok_iff.mp h
  obtain ⟨_, d, hcharge, h⟩ := run_bind_eq_ok_iff.mp h
  cases h
  cases hcharge
  rw [← Segment.free_mapM scope segments a parts c hparts]

mutual

/-- **Without a limit a branch charges for its output**, however deep its texts stand and however
often they are repeated. -/
theorem Branch.used_render : ∀ (b : Branch) (scope : Value) (a : Account) (s : String)
    (c : Account), (Branch.render none b scope).run a = (.ok s, c) → c.used = a.used + s.length
  | .text segments, scope, a, s, c, h => Segment.used_renderAll h
  | .conditional condition children, scope, a, s, c, h => by
      obtain ⟨holds, d, hcondition, h⟩ := run_bind_eq_ok_iff.mp h
      have hfree := free_inSequence.condition scope condition a holds d hcondition
      cases holds with
      | true => rw [Branch.used_renderAll children scope d s c h, hfree]
      | false =>
          cases h
          exact hfree
  | .repeated it children, scope, a, s, c, h => by
      obtain ⟨v, d, hresolve, h⟩ := run_bind_eq_ok_iff.mp h
      obtain ⟨pairs, e, hwalk, h⟩ := run_bind_eq_ok_iff.mp h
      obtain ⟨parts, g, hparts, h⟩ := run_bind_eq_ok_iff.mp h
      cases h
      rw [used_mapM (fun pair => Branch.used_renderAll children (it.bind scope pair)) pairs hparts,
        free_walk v d pairs e hwalk, free_inSequence.ofLimit _ a v d hresolve]
termination_by structural b => b

/-- Without a limit a row of branches charges for its output. -/
theorem Branch.used_renderAll : ∀ (bs : List Branch) (scope : Value) (a : Account) (s : String)
    (c : Account), (Branch.renderAll none bs scope).run a = (.ok s, c) →
      c.used = a.used + s.length
  | [], _, a, s, c, h => by
      cases h
      rfl
  | b :: bs, scope, a, s, c, h => by
      obtain ⟨first, d, hfirst, h⟩ := run_bind_eq_ok_iff.mp h
      obtain ⟨rest, e, hrest, h⟩ := run_bind_eq_ok_iff.mp h
      cases h
      rw [Branch.used_renderAll bs scope d rest c hrest, Branch.used_render b scope a first d hfirst,
        String.length_append, Nat.add_assoc]
termination_by structural bs => bs

end

/-! ## Templates -/

/-- A row of branches under a limit, from an account where nothing is charged yet. -/
theorem Branch.renderAll_limited {bs : List Branch} {scope : Value} {a b : Account} {s : String}
    {limit : Int} (hlimit : 0 ≤ limit) (ha : a.used = 0)
    (h : (Branch.renderAll none bs scope).run a = (.ok s, b)) :
    ((Branch.renderAll (some limit) bs scope).run a).1 =
      if (s.length : Int) ≤ limit then .ok s else .error (.outputLimit limit) := by
  have hused : b.used = s.length := by
    rw [Branch.used_renderAll bs scope a s b h, ha, Nat.zero_add]
  obtain ⟨-, hcapped⟩ := Branch.capped_renderAll limit bs scope a s b h
  have hstart : (a.used : Int) ≤ limit := by omega
  by_cases hle : (s.length : Int) ≤ limit
  · rw [if_pos hle, (hcapped hstart).1 (by omega)]
  · rw [if_neg hle, (hcapped hstart).2 (by omega)]

/-- **The output limit agrees with the unlimited rendering.** If a template without a limit renders
some data to a text, then under a limit, on the same data with the same streams unwalked, it renders
them to that text if the text keeps to the limit, and otherwise fails with the limit. -/
theorem Template.render_limited (tree : List Branch) (source : String) (data : Value)
    (limit : Int) (hlimit : 0 ≤ limit) (a b : Account) (s : String)
    (h : ((Template.mk tree source none).render data).run a = (.ok s, b)) :
    (((Template.mk tree source (some limit)).render data).run a).1 =
      if (s.length : Int) ≤ limit then .ok s else .error (.outputLimit limit) := by
  -- data that are no mapping are refused before anything is rendered
  cases data with
  | null => exact Branch.renderAll_limited hlimit rfl h
  | map entries => exact Branch.renderAll_limited hlimit rfl h
  | _ => cases h

/-- Every word of a collection, and a mark after it unless the word is empty. -/
def marked : List Branch :=
  [.repeated ⟨⟨"words", [.name "words"]⟩, "w", none⟩
    [.text [.placeholder ⟨"w", [.name "w"]⟩ "${w}"],
      .conditional ⟨false, ⟨"w", [.name "w"]⟩, .truthy⟩ [.text [.literal "!"]]]]

/-- Three words, the second one empty. -/
def words : Value := .map [(.text "words", .list [.text "ab", .text "", .text "c"])]

theorem Template.render_limited_marked :
    (∃ b, ((Template.mk marked "" none).render words).run .start = (.ok "ab!c!", b)) ∧
      (((Template.mk marked "" (some 5)).render words).run .start).1 = .ok "ab!c!" ∧
      (((Template.mk marked "" (some 4)).render words).run .start).1
        = .error (.outputLimit 4) := by
  have h : ((Template.mk marked "" none).render words).run .start
      = (.ok "ab!c!", (((Template.mk marked "" none).render words).run .start).2) := by
    rfl
  exact ⟨⟨_, h⟩, Template.render_limited marked "" words 5 (by decide) _ _ _ h,
    Template.render_limited marked "" words 4 (by decide) _ _ _ h⟩

end Stencil
