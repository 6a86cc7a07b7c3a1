import Stencil.Proofs.Render.Run

/-! # Visits of collections

What the executions of repeated parts get to walk, in the order in which they come about.

* `Visit` is one execution of a repeated part: the collection it came to, and the pairs it got.
* `Branch.visits` lists the visits of a rendering, and `Template.deliveries` those of a number of
  renderings in a row.
* `Delivered` says what the visits get, one after the other; `Branch.delivers_renderAll` that all of them
  get this.
* `Delivered.due`: a stream yields all its items to the first visit, and nothing to any later one. -/

namespace Stencil

/-- A **visit**: an execution of a repeated part. -/
structure Visit where
  /-- The collection that the execution came to. -/
  collection : Value
  /-- The pairs that it got. -/
  pairs : List (Value × Value)

namespace Visit

/-- The stream that is visited, if the collection is one. -/
def stream? (visit : Visit) : Option Nat :=
  match visit.collection with
  | .stream id _ => some id
  | _ => none

/-- The streams that were **reached** by visits. -/
def reached (visits : List Visit) : List Nat := visits.filterMap stream?

theorem mem_reached_cons {visit : Visit} {visits : List Visit} {id : Nat} :
    id ∈ reached (visit :: visits) ↔ visit.stream? = some id ∨ id ∈ reached visits := by
  rw [reached, List.filterMap_cons]
  cases visit.stream? with
  | none => simp [reached]
  | some i => simp [reached, eq_comm]

/-- A visit of anything but a stream reaches none. -/
theorem stream?_eq_none {v : Value} (h : ∀ id items, v ≠ .stream id items) (pairs : List (Value × Value)) :
    stream? ⟨v, pairs⟩ = none := by
  cases v with
  | stream id items => exact absurd rfl (h id items)
  | _ => rfl

/-- Whether a visit got **what is due** to it when some streams were reached before: all items of a stream
with their positions, or nothing if it was one of those; and the pairs of any other collection. -/
def Due (before : List Nat) (visit : Visit) : Prop :=
  visit.pairs =
    match visit.collection with
    | .stream id items => if id ∈ before then [] else Value.enumerate items
    | v => v.pairs

end Visit

/-! ## The visits of a rendering -/

namespace Render

variable {α β : Type}

/-- What is visited behind a rendering: it depends on what that returns and on the account it leaves, and
behind one that fails there is nothing. -/
def behind (x : Render α) (visits : α → Account → List Visit) (a : Account) : List Visit :=
  match x.run a with
  | (.ok v, b) => visits v b
  | (.error _, _) => []

/-- The visits of a row of renderings. -/
def visitsRow (x : α → Render β) (visits : α → Account → List Visit) : List α → Account → List Visit
  | [], _ => []
  | v :: vs, a => visits v a ++ behind (x v) (fun _ b => visitsRow x visits vs b) a

end Render

open Render

mutual

/-- **The visits of a branch** that is rendered in a scope. -/
def Branch.visits (limit : Option Int) : Branch → Value → Account → List Visit
  | .text _, _, _ => []
  | .conditional c children, scope, a =>
    behind (c.render scope) (fun holds b => if holds then Branch.visitsAll limit children scope b else []) a
  | .repeated it children, scope, a =>
    behind (ofLimit (scope.resolve it.collection)) (fun v => behind (walk v) fun pairs b =>
      ⟨v, pairs⟩ :: visitsRow (fun pair => Branch.renderAll limit children (it.bind scope pair))
        (fun pair => Branch.visitsAll limit children (it.bind scope pair)) pairs b) a
termination_by structural b => b

/-- The visits of a row of branches. -/
def Branch.visitsAll (limit : Option Int) : List Branch → Value → Account → List Visit
  | [], _, _ => []
  | b :: bs, scope, a =>
    Branch.visits limit b scope a ++
      behind (Branch.render limit b scope) (fun _ c => Branch.visitsAll limit bs scope c) a
termination_by structural bs => bs

end

/-! ## What is delivered -/

/-- Whether visits get **what is due**, one after the other, from a record of streams that were walked to
the record that they leave. -/
inductive Delivered : List Nat → List Visit → List Nat → Prop
  | nil (drained : List Nat) : Delivered drained [] drained
  | fresh {drained last : List Nat} {visits : List Visit} {id : Nat} {items : List Value}
      (fresh : id ∉ drained) (rest : Delivered (id :: drained) visits last) :
      Delivered drained (⟨.stream id items, Value.enumerate items⟩ :: visits) last
  | again {drained last : List Nat} {visits : List Visit} {id : Nat} {items : List Value}
      (walked : id ∈ drained) (rest : Delivered drained visits last) :
      Delivered drained (⟨.stream id items, []⟩ :: visits) last
  | other {drained last : List Nat} {visits : List Visit} {v : Value}
      (other : ∀ id items, v ≠ .stream id items) (rest : Delivered drained visits last) :
      Delivered drained (⟨v, v.pairs⟩ :: visits) last

namespace Delivered

variable {first middle last : List Nat} {visits : List Visit}

/-- Visits in a row. -/
theorem append {others : List Visit} (h : Delivered first visits middle)
    (k : Delivered middle others last) : Delivered first (visits ++ others) last := by
  induction h with
  | nil => exact k
  | fresh hfresh _ ih => exact .fresh hfresh (ih k)
  | again hwalked _ ih => exact .again hwalked (ih k)
  | other hother _ ih => exact .other hother (ih k)

/-- Visits in a row, taken apart. -/
theorem exists_middle {others : List Visit} (h : Delivered first (visits ++ others) last) :
    ∃ middle, Delivered first visits middle ∧ Delivered middle others last := by
  induction visits generalizing first with
  | nil => exact ⟨first, .nil first, h⟩
  | cons visit visits ih =>
      cases h with
      | fresh hfresh rest =>
          obtain ⟨middle, hvisits, hothers⟩ := ih rest
          exact ⟨middle, .fresh hfresh hvisits, hothers⟩
      | again hwalked rest =>
          obtain ⟨middle, hvisits, hothers⟩ := ih rest
          exact ⟨middle, .again hwalked hvisits, hothers⟩
      | other hother rest =>
          obtain ⟨middle, hvisits, hothers⟩ := ih rest
          exact ⟨middle, .other hother hvisits, hothers⟩

/-- **The record that is left** holds the streams that were in it, and those that were reached. -/
theorem mem_iff (h : Delivered first visits last) {id : Nat} :
    id ∈ last ↔ id ∈ Visit.reached visits ∨ id ∈ first := by
  induction h with
  | nil => simp [Visit.reached]
  | @fresh drained _ visits i items _ _ ih =>
      rw [ih, Visit.mem_reached_cons, List.mem_cons]
      simp only [Visit.stream?, Option.some.injEq]
      tauto
  | @again drained _ visits i items hwalked _ ih =>
      rw [ih, Visit.mem_reached_cons]
      simp only [Visit.stream?, Option.some.injEq]
      constructor
      · rintro (h | h)
        · exact .inl (.inr h)
        · exact .inr h
      · rintro ((rfl | h) | h)
        · exact .inr hwalked
        · exact .inl h
        · exact .inr h
  | other hother _ ih =>
      rw [ih, Visit.mem_reached_cons, Visit.stream?_eq_none hother]
      simp

/-- **Every visit gets what is due** to it after those before it. -/
theorem due {before after : List Visit} {visit : Visit}
    (h : Delivered first (before ++ visit :: after) last) : visit.Due (Visit.reached before ++ first) := by
  obtain ⟨middle, hbefore, hvisit⟩ := h.exists_middle
  -- the visit finds on record what was reached before it
  have hmem : ∀ id, id ∈ Visit.reached before ++ first ↔ id ∈ middle := fun id => by
    rw [List.mem_append, hbefore.mem_iff]
  rw [Visit.Due]
  cases hvisit with
  | fresh hfresh => exact (if_neg fun h => hfresh ((hmem _).mp h)).symm
  | again hwalked => exact (if_pos ((hmem _).mpr hwalked)).symm
  | @other _ _ _ v hother =>
      cases v with
      | stream id items => exact absurd rfl (hother id items)
      | _ => rfl

end Delivered

/-! ## Renderings that deliver -/

namespace Render

variable {α β : Type}

/-- Whether a rendering **delivers** to its visits what is due, from the record of its account to the one
that it leaves, also when it fails. -/
def Delivers (x : Render α) (visits : Account → List Visit) : Prop :=
  ∀ a, Delivered a.drained (visits a) (x.run a).2.drained

/-- A rendering that is **idle** walks no stream. -/
def Idle (x : Render α) : Prop := ∀ a, (x.run a).2.drained = a.drained

/-- Only walking a stream is not idle. -/
theorem idle_inSequence : InSequence @Idle where
  pure _ _ := rfl
  throw _ _ := rfl
  note _ _ := rfl
  bind {_ _ x f} hx hf a := by
    have hfirst := hx a
    rw [run_bind]
    rcases hrun : x.run a with ⟨_ | v, b⟩
    · rw [hrun] at hfirst
      exact hfirst
    · rw [hrun] at hfirst
      exact (hf v b).trans hfirst

/-- Charging is idle. -/
theorem idle_charge (limit : Option Int) (text : String) : Idle (charge limit text) := by
  cases limit with
  | none => exact fun _ => rfl
  | some n =>
      intro a
      rw [run_charge_some]
      split <;> rfl

/-- An idle rendering has no visits to deliver to. -/
theorem Idle.delivers {x : Render α} (hx : Idle x) : Delivers x fun _ => [] := by
  intro a
  rw [hx a]
  exact .nil _

/-- **Two renderings in a row** deliver if both do. -/
theorem Delivers.bind {x : Render α} {f : α → Render β} {visits : Account → List Visit}
    {others : α → Account → List Visit} (hx : Delivers x visits) (hf : ∀ v, Delivers (f v) (others v)) :
    Delivers (x >>= f) fun a => visits a ++ behind x others a := by
  intro a
  have hfirst := hx a
  show Delivered a.drained (visits a ++ behind x others a) _
  rw [run_bind, behind]
  rcases hrun : x.run a with ⟨_ | v, b⟩
  · -- a first rendering that fails has delivered to its own visits, and there are no others
    rw [hrun] at hfirst
    show Delivered a.drained (visits a ++ []) b.drained
    rw [List.append_nil]
    exact hfirst
  · rw [hrun] at hfirst
    exact hfirst.append (hf v b)

/-- A rendering behind which only an idle one follows. -/
theorem Delivers.map {x : Render α} {f : α → Render β} {visits : Account → List Visit}
    (hx : Delivers x visits) (hf : ∀ v, Idle (f v)) : Delivers (x >>= f) visits := by
  have hbehind : ∀ a, behind x (fun _ _ => []) a = [] := by
    intro a
    rw [behind]
    split <;> rfl
  intro a
  have h : Delivered a.drained (visits a ++ behind x (fun _ _ => []) a) _ :=
    hx.bind (fun v => (hf v).delivers) a
  rwa [hbehind, List.append_nil] at h

/-- A rendering before which only an idle one stands. -/
theorem Idle.bind {x : Render α} {f : α → Render β} {others : α → Account → List Visit}
    (hx : Idle x) (hf : ∀ v, Delivers (f v) (others v)) : Delivers (x >>= f) (behind x others) :=
  hx.delivers.bind hf

/-- A row of renderings delivers if each of them does. -/
theorem delivers_mapM {x : α → Render β} {visits : α → Account → List Visit}
    (hx : ∀ v, Delivers (x v) (visits v)) (l : List α) : Delivers (l.mapM x) (visitsRow x visits l) := by
  induction l with
  | nil => exact (idle_inSequence.pure []).delivers
  | cons v vs ih =>
      rw [List.mapM_cons]
      exact (hx v).bind fun w => ih.map fun ws => idle_inSequence.pure (w :: ws)

/-- **Walking a collection** delivers its pairs to a visit of it. -/
theorem delivers_walk {f : List (Value × Value) → Render β}
    {others : List (Value × Value) → Account → List Visit}
    (hf : ∀ pairs, Delivers (f pairs) (others pairs)) (v : Value) :
    Delivers (walk v >>= f) (behind (walk v) fun pairs b => ⟨v, pairs⟩ :: others pairs b) := by
  intro a
  rw [run_bind, behind]
  cases v with
  | stream id items =>
      rw [run_walk_stream]
      by_cases hwalked : a.drained.contains id = true
      · rw [if_pos hwalked]
        exact .again (List.contains_iff_mem.mp hwalked) (hf [] a)
      · rw [if_neg hwalked]
        exact .fresh (fun h => hwalked (List.contains_iff_mem.mpr h))
          (hf (Value.enumerate items) { a with drained := id :: a.drained })
  | _ => exact .other (fun _ _ => nofun) (hf _ a)

end Render

mutual

/-- **Rendering a branch** delivers to its visits what is due. -/
theorem Branch.delivers_render (limit : Option Int) : ∀ (b : Branch) (scope : Value),
    Delivers (Branch.render limit b scope) (Branch.visits limit b scope)
  | .text segments, scope => (idle_inSequence.segments (idle_charge limit) scope segments).delivers
  | .conditional c children, scope => by
      refine (idle_inSequence.condition scope c).bind fun holds => ?_
      cases holds with
      | true => exact Branch.delivers_renderAll limit children scope
      | false => exact (idle_inSequence.pure "").delivers
  | .repeated it children, scope => by
      refine (idle_inSequence.ofLimit _).bind fun v => delivers_walk (fun pairs => ?_) v
      have hrounds := delivers_mapM
        (fun pair => Branch.delivers_renderAll limit children (it.bind scope pair)) pairs
      exact hrounds.map fun parts => idle_inSequence.pure (String.join parts)
termination_by structural b => b

/-- **Rendering branches** delivers to their visits what is due. -/
theorem Branch.delivers_renderAll (limit : Option Int) : ∀ (bs : List Branch) (scope : Value),
    Delivers (Branch.renderAll limit bs scope) (Branch.visitsAll limit bs scope)
  | [], _ => (idle_inSequence.pure "").delivers
  | b :: bs, scope => by
      refine (Branch.delivers_render limit b scope).bind fun first => ?_
      exact (Branch.delivers_renderAll limit bs scope).map fun rest => idle_inSequence.pure (first ++ rest)
termination_by structural bs => bs

end

/-! ## Renderings of a template, one after the other -/

namespace Template

variable (t : Template)

/-- The account after a number of renderings of the same data. -/
def after (data : Value) : Nat → Account
  | 0 => .start
  | n + 1 => ((t.render data).run (after data n)).2

/-- What a rendering **answers** after a number of others, of the same data. -/
def answer (data : Value) (n : Nat) : Except RenderError String := ((t.render data).run (t.after data n)).1

/-- The visits of one rendering of a mapping. -/
def visits (entries : List (Value × Value)) (a : Account) : List Visit :=
  Branch.visitsAll t.maxOutput t.tree (.map entries) { a with used := 0 }

/-- The visits of a number of renderings of the same mapping, in order. -/
def deliveries (entries : List (Value × Value)) : Nat → List Visit
  | 0 => []
  | n + 1 => deliveries entries n ++ t.visits entries (t.after (.map entries) n)

/-- One rendering delivers what is due. -/
theorem delivered_visits (entries : List (Value × Value)) (a : Account) :
    Delivered a.drained (t.visits entries a) ((t.render (.map entries)).run a).2.drained :=
  Branch.delivers_renderAll t.maxOutput t.tree (.map entries) { a with used := 0 }

/-- **A number of renderings** deliver what is due, from the first visit that any of them makes to the
last. -/
theorem delivered_deliveries (entries : List (Value × Value)) (n : Nat) :
    Delivered [] (t.deliveries entries n) (t.after (.map entries) n).drained := by
  induction n with
  | zero => exact .nil []
  | succ n ih => exact ih.append (t.delivered_visits entries _)

end Template

end Stencil
