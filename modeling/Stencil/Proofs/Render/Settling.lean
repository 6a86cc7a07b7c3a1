import Stencil.Proofs.Render.Steady
import Stencil.Proofs.Render.Visits
import Stencil.Proofs.Value.Drain

/-! # Rendering the same data again

A stream yields its items once, so that data with streams may be rendered differently a second time, but
not a third time.

* `Render.Settles` relates a rendering to what it comes to once the streams that it walked are empty. It is
  kept in sequence (`Settles.bind`) and in rows (`settles_mapM`), and so by all branches
  (`Branch.settles_renderAll`).
* `Render.Metered` holds of renderings that look at nothing in the account but at what was charged.
* `Template.render_again`: streams deliver once, renderings settle after the first one, and without streams
  all of them are equal. -/

namespace Stencil

namespace Render

variable {α β γ δ : Type} {R : α → β → Prop} {S : γ → δ → Prop}

/-! ## Renderings that settle -/

/-- Whether a rendering **settles** on one of drained data: if it returns, then it took nothing off the
record of streams nor off the charge, and there is one value that the other returns from every account from
which no stream on that record yields anything more, and which leaves as much to charge. -/
def Settles (R : α → β → Prop) (x : Render α) (y : List Nat → Render β) : Prop :=
  ∀ a v b, x.run a = (.ok v, b) → a.drained ⊆ b.drained ∧ a.used ≤ b.used ∧
    ∃ w, R v w ∧ ∀ ids c, (∀ id ∈ b.drained, id ∈ ids ∨ id ∈ c.drained) → c.used ≤ a.used →
      ∃ d, (y ids).run c = (.ok w, d) ∧ c.drained ⊆ d.drained ∧ d.used ≤ b.used

/-- What returns at once settles. -/
theorem settles_pure {v : α} {w : β} (h : R v w) : Settles R (pure v) fun _ => pure w := by
  intro a _ b hrun
  cases hrun
  exact ⟨List.Subset.refl _, le_rfl, w, h, fun ids c _ hused => ⟨c, rfl, List.Subset.refl _, hused⟩⟩

/-- What fails settles on anything. -/
theorem settles_throw (e : RenderError) (y : List Nat → Render β) : Settles R (throw e : Render α) y := by
  intro a v b hrun
  cases hrun

/-- **Two renderings in a row** settle if both do: what the first one walked stays walked for the second. -/
theorem Settles.bind {x : Render α} {y : List Nat → Render β} {f : α → Render γ}
    {g : List Nat → β → Render δ} (hxy : Settles R x y)
    (hfg : ∀ v w, R v w → Settles S (f v) fun ids => g ids w) :
    Settles S (x >>= f) fun ids => y ids >>= g ids := by
  intro a s c hrun
  obtain ⟨v, b, hx, hf⟩ := run_bind_eq_ok_iff.mp hrun
  obtain ⟨hab, hused, w, hvw, hy⟩ := hxy a v b hx
  obtain ⟨hbc, hused', t, hst, hg⟩ := hfg v w hvw b s c hf
  -- what yields nothing after both parts does so after the first one, and is still on record for the second
  refine ⟨List.Subset.trans hab hbc, hused.trans hused', t, hst, fun ids c' hcovered hle => ?_⟩
  obtain ⟨d, hd, hdrained, hcharged⟩ := hy ids c' (fun id hid => hcovered id (hbc hid)) hle
  obtain ⟨e, he, hdrained', hcharged'⟩ :=
    hg ids d (fun id hid => (hcovered id hid).imp_right fun h => hdrained h) hcharged
  exact ⟨e, by rw [run_bind_of_ok hd, he], List.Subset.trans hdrained hdrained', hcharged'⟩

/-- **A row of renderings** settles if each of them does. -/
theorem settles_mapM {f : α → Render γ} {g : List Nat → β → Render δ} {m : List Nat → α → β} {l : List α}
    (hfg : ∀ v ∈ l, Settles S (f v) fun ids => g ids (m ids v)) :
    Settles (List.Forall₂ S) (l.mapM f) fun ids => (l.map (m ids)).mapM (g ids) := by
  induction l with
  | nil => exact settles_pure .nil
  | cons v vs ih =>
      have hrest := ih fun u hu => hfg u (List.mem_cons_of_mem v hu)
      simp only [List.mapM_cons, List.map_cons]
      refine (hfg v List.mem_cons_self).bind fun s t hst => ?_
      exact hrest.bind fun ss ts hrest => settles_pure (.cons hst hrest)

/-! ## Renderings that only note -/

/-- A rendering is **quiet** if it returns the same from every account, charges nothing and walks no
stream. -/
structure Quiet (x : Render α) : Prop where
  /-- It returns the same from every account. -/
  steady : Steady x
  /-- It charges nothing. -/
  free : Free x
  /-- It walks no stream. -/
  idle : Idle x

/-- Neither charging nor walking is quiet; all else is. -/
theorem quiet_inSequence : InSequence @Quiet where
  pure v := ⟨steady_inSequence.pure v, free_inSequence.pure v, idle_inSequence.pure v⟩
  throw e := ⟨steady_inSequence.throw e, free_inSequence.throw e, idle_inSequence.throw e⟩
  note e := ⟨steady_inSequence.note e, free_inSequence.note e, idle_inSequence.note e⟩
  bind hx hf := ⟨steady_inSequence.bind hx.steady fun v => (hf v).steady,
    free_inSequence.bind hx.free fun v => (hf v).free,
    idle_inSequence.bind hx.idle fun v => (hf v).idle⟩

/-- What a quiet rendering leaves when it returns. -/
theorem Quiet.leaves {x : Render α} (hx : Quiet x) {a b : Account} {v : α} (h : x.run a = (.ok v, b)) :
    b.drained = a.drained ∧ b.used = a.used := by
  have hidle := hx.idle a
  rw [h] at hidle
  exact ⟨hidle, hx.free a v b h⟩

/-- **Quiet renderings settle** on quiet ones that return the same. -/
theorem Quiet.settles {x : Render α} {y : List Nat → Render α} (hx : Quiet x) (hy : ∀ ids, Quiet (y ids))
    (h : ∀ ids, (y ids).outcome = x.outcome) : Settles (· = ·) x y := by
  intro a v b hrun
  obtain ⟨hdrained, hused⟩ := hx.leaves hrun
  refine ⟨hdrained ▸ List.Subset.refl _, hused.ge, v, rfl, fun ids c _ hle => ?_⟩
  have houtcome := (hy ids).steady c
  rw [h, ← hx.steady a, hrun] at houtcome
  rcases hc : (y ids).run c with ⟨r, d⟩
  rw [hc] at houtcome
  obtain rfl : r = .ok v := houtcome
  obtain ⟨hdrained', hused'⟩ := (hy ids).leaves hc
  exact ⟨d, rfl, hdrained' ▸ List.Subset.refl _, by omega⟩

/-- Charging for the same text settles: there is as much left to charge. -/
theorem settles_charge (limit : Option Int) (text : String) :
    Settles (· = ·) (charge limit text) fun _ => charge limit text := by
  intro a _ b hrun
  cases limit with
  | none =>
      cases hrun
      refine ⟨List.Subset.refl _, Nat.le_add_right _ _, (), rfl, fun _ c _ hle => ?_⟩
      exact ⟨_, rfl, List.Subset.refl _, Nat.add_le_add_right hle _⟩
  | some n =>
      rw [run_charge_some] at hrun
      split at hrun
      · cases hrun
      · -- a smaller charge keeps to the limit, too
        rename_i hfits
        cases hrun
        refine ⟨List.Subset.refl _, Nat.le_add_right _ _, (), rfl, fun _ c _ hle => ?_⟩
        have hfits' : ¬ n < (c.used + text.length : Nat) := by omega
        refine ⟨{ c with used := c.used + text.length }, ?_, List.Subset.refl _,
          Nat.add_le_add_right hle _⟩
        rw [run_charge_some, if_neg hfits']

/-! ## Walking a stream again -/

/-- A stream that is walked is recorded, at no charge. -/
theorem recorded_of_walk {id : Nat} {items : List Value} {pairs : List (Value × Value)} {a b : Account}
    (h : (walk (.stream id items)).run a = (.ok pairs, b)) :
    a.drained ⊆ b.drained ∧ id ∈ b.drained ∧ b.used = a.used := by
  rw [run_walk_stream] at h
  split at h
  · rename_i hwalked
    cases h
    exact ⟨List.Subset.refl _, List.contains_iff_mem.mp hwalked, rfl⟩
  · cases h
    exact ⟨List.subset_cons_self _ _, List.mem_cons_self, rfl⟩

/-- A stream that is empty or recorded yields nothing. -/
theorem exists_walk_of_drained {id : Nat} {ids : List Nat} {c : Account} (h : id ∈ ids ∨ id ∈ c.drained)
    (items : List Value) : ∃ d, (walk ((Value.stream id items).drain ids)).run c = (.ok [], d) ∧
      c.drained ⊆ d.drained ∧ d.used = c.used := by
  rw [Value.drain, run_walk_stream]
  by_cases hwalked : c.drained.contains id = true
  · rw [if_pos hwalked]
    exact ⟨c, rfl, List.Subset.refl _, rfl⟩
  · have hids : id ∈ ids := h.resolve_right fun hmem => hwalked (List.contains_iff_mem.mpr hmem)
    rw [if_neg hwalked, if_pos hids]
    exact ⟨_, rfl, List.subset_cons_self _ _, rfl⟩

/-- **Walking a collection settles**, if what is done with its pairs does. Whatever was done with the items
of a stream, afterwards there are none. -/
theorem settles_walk {f : List (Value × Value) → Render α} {g : List Nat → List (Value × Value) → Render β}
    {w : β} (hf : ∀ pairs, Settles R (f pairs) fun ids => g ids (pairs.map (Value.drainPair ids)))
    (hR : ∀ v, R v w) (hg : ∀ ids, g ids [] = pure w) (v : Value) :
    Settles R (walk v >>= f) fun ids => walk (v.drain ids) >>= g ids := by
  by_cases hstream : ∃ id items, v = .stream id items
  · -- the first time the items may be there, but then the stream is on record
    obtain ⟨id, items, rfl⟩ := hstream
    intro a v b hrun
    obtain ⟨pairs, a', hwalk, hrest⟩ := run_bind_eq_ok_iff.mp hrun
    obtain ⟨hbefore, hid, hfree⟩ := recorded_of_walk hwalk
    obtain ⟨hafter, hused, -⟩ := hf pairs a' v b hrest
    refine ⟨List.Subset.trans hbefore hafter, by omega, w, hR v, fun ids c hcovered hle => ?_⟩
    obtain ⟨d, hd, hdrained, hcharged⟩ := exists_walk_of_drained (hcovered id (hafter hid)) items
    refine ⟨d, ?_, hdrained, by omega⟩
    rw [run_bind_of_ok hd, hg]
    rfl
  · -- all other collections have the same pairs as before, drained
    have hne : ∀ id items, v ≠ .stream id items := fun id items h => hstream ⟨id, items, h⟩
    simp only [walk_eq_pure hne, walk_eq_pure (Value.drain_ne_stream _ hne), pure_bind,
      Value.pairs_drain _ hne]
    exact hf v.pairs

end Render

open Render

/-! ## Texts and conditions -/

/-- A segment is rendered alike in a drained scope. -/
theorem Segment.render_drain (ids : List Nat) (scope : Value) (s : Segment) :
    s.render (scope.drain ids) = s.render scope := by
  cases s with
  | literal text => rfl
  | placeholder path raw =>
      rw [Segment.render, Segment.render, Value.resolve_drain]
      cases scope.resolve path with
      | error l => rfl
      | ok v =>
          show (Render.ofLimit (v.drain ids).scalar? >>= _ : Render String) = _
          rw [Value.scalar?_drain]
          rfl

/-- A text branch is rendered alike in a drained scope. -/
theorem Segment.renderAll_drain (limit : Option Int) (ids : List Nat) (scope : Value)
    (segments : List Segment) :
    Segment.renderAll limit (scope.drain ids) segments = Segment.renderAll limit scope segments := by
  rw [Segment.renderAll, Segment.renderAll, funext (Segment.render_drain ids scope)]

/-- A text branch settles. -/
theorem Segment.settles_renderAll (limit : Option Int) (scope : Value) (segments : List Segment) :
    Settles (fun _ _ => True) (Segment.renderAll limit scope segments) fun ids =>
      Segment.renderAll limit (scope.drain ids) segments := by
  simp only [Segment.renderAll_drain]
  have hparts : Quiet (segments.mapM (Segment.render scope)) :=
    quiet_inSequence.mapM fun s _ => quiet_inSequence.segment scope s
  refine (hparts.settles (fun _ => hparts) fun _ => rfl).bind fun parts parts' hsame => ?_
  subst hsame
  exact (settles_charge limit _).bind fun _ _ _ => settles_pure trivial

/-- A condition settles, on what it comes to at first. -/
theorem Condition.settles_render (scope : Value) (c : Condition) :
    Settles (· = ·) (c.render scope) fun ids => c.render (scope.drain ids) := by
  refine (quiet_inSequence.condition scope c).settles
    (fun ids => quiet_inSequence.condition (scope.drain ids) c) fun ids => ?_
  have houtcome : ∀ scope : Value, (c.render scope).outcome =
      (Verdict.holds <$> c.test? scope).mapError RenderError.limit := by
    intro scope
    rw [Condition.outcome_render]
    cases c.test? scope <;> rfl
  rw [houtcome, houtcome, Condition.test?_drain]

/-! ## Branches -/

/-- The rounds of an iteration settle, if its content does in every scope. -/
theorem Iteration.settles_rounds {x : Value → Render String}
    (hx : ∀ scope, Settles (fun _ _ => True) (x scope) fun ids => x (scope.drain ids)) (it : Iteration)
    (scope : Value) (pairs : List (Value × Value)) :
    Settles (fun _ _ => True)
      (pairs.mapM (fun pair => x (it.bind scope pair)) >>= fun parts => pure (String.join parts))
      fun ids => (pairs.map (Value.drainPair ids)).mapM (fun pair => x (it.bind (scope.drain ids) pair)) >>=
        fun parts => pure (String.join parts) := by
  have hrow := settles_mapM (m := Value.drainPair) (l := pairs) (f := fun pair => x (it.bind scope pair))
    (g := fun ids pair => x (it.bind (scope.drain ids) pair)) fun pair _ => by
      simp only [Iteration.bind_drain]
      exact hx (it.bind scope pair)
  exact hrow.bind fun _ _ _ => settles_pure trivial

mutual

/-- **A branch settles**, whatever it walks. -/
theorem Branch.settles_render (limit : Option Int) : ∀ (b : Branch) (scope : Value),
    Settles (fun _ _ => True) (Branch.render limit b scope) fun ids =>
      Branch.render limit b (scope.drain ids)
  | .text segments, scope => Segment.settles_renderAll limit scope segments
  | .conditional c children, scope => by
      refine (c.settles_render scope).bind fun holds _ hsame => ?_
      subst hsame
      cases holds with
      | true => exact Branch.settles_renderAll limit children scope
      | false => exact settles_pure trivial
  | .repeated it children, scope => by
      simp only [Branch.render, Value.resolve_drain]
      cases scope.resolve it.collection with
      | error l => exact settles_throw _ _
      | ok v =>
          exact settles_walk (R := fun _ _ => True)
            (g := fun ids pairs => pairs.mapM (fun pair =>
              Branch.renderAll limit children (it.bind (scope.drain ids) pair)) >>= fun parts =>
                pure (String.join parts))
            (it.settles_rounds (fun inner => Branch.settles_renderAll limit children inner) scope)
            (fun _ => trivial) (fun _ => rfl) v
termination_by structural b => b

/-- **Branches settle**, whatever they walk. -/
theorem Branch.settles_renderAll (limit : Option Int) : ∀ (bs : List Branch) (scope : Value),
    Settles (fun _ _ => True) (Branch.renderAll limit bs scope) fun ids =>
      Branch.renderAll limit bs (scope.drain ids)
  | [], _ => settles_pure trivial
  | b :: bs, scope => by
      refine (Branch.settles_render limit b scope).bind fun first first' _ => ?_
      exact (Branch.settles_renderAll limit bs scope).bind fun rest rest' _ => settles_pure trivial
termination_by structural bs => bs

end

/-! ## Renderings without streams -/

namespace Render

/-- A rendering is **metered** if all that it looks at in the account is what was charged: from accounts with
the same charge it returns the same, and leaves accounts with the same charge. -/
def Metered {α : Type} (x : Render α) : Prop :=
  ∀ a b : Account, a.used = b.used → (x.run a).1 = (x.run b).1 ∧ (x.run a).2.used = (x.run b).2.used

/-- Only walking a stream is not metered. -/
theorem metered_inSequence : InSequence @Metered where
  pure _ _ _ h := ⟨rfl, h⟩
  throw _ _ _ h := ⟨rfl, h⟩
  note _ _ _ h := ⟨rfl, h⟩
  bind {_ _ x f} hx hf a b h := by
    obtain ⟨hresult, hused⟩ := hx a b h
    rw [run_bind, run_bind]
    rcases hrunA : x.run a with ⟨r, a'⟩
    rcases hrunB : x.run b with ⟨r', b'⟩
    rw [hrunA, hrunB] at hresult hused
    obtain rfl : r = r' := hresult
    cases r with
    | ok v => exact hf v a' b' hused
    | error e => exact ⟨rfl, hused⟩

/-- Charging is metered. -/
theorem metered_charge (limit : Option Int) (text : String) : Metered (charge limit text) := by
  intro a b h
  cases limit with
  | none => exact ⟨rfl, congrArg (· + text.length) h⟩
  | some n =>
      rw [run_charge_some, run_charge_some, h]
      split <;> exact ⟨rfl, rfl⟩

end Render

/-! ## Templates -/

namespace Template

variable {t : Template} {entries : List (Value × Value)}

/-- **What a first rendering settles on**: there is one text that the mapping is rendered to, with some
streams empty or not, from every account from which no stream that the first rendering reached yields
anything more. -/
theorem exists_render_of_answer {s : String} (h : t.answer (.map entries) 0 = .ok s) :
    ∃ s', ∀ (ids : List Nat) (c : Account),
      (∀ id ∈ (t.after (.map entries) 1).drained, id ∈ ids ∨ id ∈ c.drained) →
      ∃ d, (t.render ((Value.map entries).drain ids)).run c = (.ok s', d) ∧ c.drained ⊆ d.drained := by
  have hrun : (Branch.renderAll t.maxOutput t.tree (.map entries)).run .start =
      (.ok s, t.after (.map entries) 1) := Prod.ext h rfl
  obtain ⟨-, -, s', -, hsettled⟩ := Branch.settles_renderAll t.maxOutput t.tree (.map entries) _ _ _ hrun
  refine ⟨s', fun ids c hcovered => ?_⟩
  obtain ⟨d, hd, hgrown, -⟩ := hsettled ids { c with used := 0 } hcovered le_rfl
  refine ⟨d, ?_, hgrown⟩
  -- only a mapping is rendered, and that is what is left of one
  simp only [Value.drain_map] at hd ⊢
  exact hd

/-- **Renderings settle after the first one**, on what the first one comes to when the streams that it
reaches are empty. -/
theorem exists_settled {s : String} (h : t.answer (.map entries) 0 = .ok s) :
    ∃ s', (∀ n, t.answer (.map entries) (n + 1) = .ok s') ∧
      t.answer ((Value.map entries).drain (Visit.reached (t.deliveries entries 1))) 0 = .ok s' := by
  obtain ⟨s', hsettled⟩ := exists_render_of_answer h
  refine ⟨s', fun n => ?_, ?_⟩
  · -- a later rendering returns the text if the streams of the first one are on record, and keeps them there
    have hstep : ∀ n, (t.after (.map entries) 1).drained ⊆ (t.after (.map entries) (n + 1)).drained →
        t.answer (.map entries) (n + 1) = .ok s' ∧
          (t.after (.map entries) 1).drained ⊆ (t.after (.map entries) (n + 2)).drained := by
      intro n hrecord
      obtain ⟨d, hd, hgrown⟩ := hsettled [] (t.after (.map entries) (n + 1)) fun id hid => .inr (hrecord hid)
      rw [Value.drain_nil] at hd
      have hafter : t.after (.map entries) (n + 2) = d := congrArg Prod.snd hd
      rw [hafter]
      exact ⟨congrArg Prod.fst hd, List.Subset.trans hrecord hgrown⟩
    have hrecord : (t.after (.map entries) 1).drained ⊆ (t.after (.map entries) (n + 1)).drained := by
      induction n with
      | zero => exact List.Subset.refl _
      | succ n ih => exact (hstep n ih).2
    exact (hstep n hrecord).1
  · have hreached := t.delivered_deliveries entries 1
    obtain ⟨d, hd, -⟩ := hsettled (Visit.reached (t.deliveries entries 1)) .start
      fun id hid => hreached.mem_iff.mp hid
    exact congrArg Prod.fst hd

/-- **Without streams** all renderings are equal, also those that fail. -/
theorem answer_of_streamFree (h : StreamFree (.map entries)) (n : Nat) :
    t.answer (.map entries) n = t.answer (.map entries) 0 :=
  (metered_inSequence.branches (metered_charge t.maxOutput) t.tree (.map entries) h
    { t.after (.map entries) n with used := 0 } .start rfl).1

/-- **Streams deliver once, and renderings settle.** In any number of renderings of the same mapping, every
execution of a repeated part gets what is due to it: all items of a stream with their positions if no
execution before it reached the stream, in the same rendering or in an earlier one, and nothing if one did.
If the first rendering returns, then all later ones return one text, and it is what the first one returns for
the mapping with those streams empty that it reached. Without streams, all renderings answer the same. What
the attributes of a stream show is taken not to change when it is walked. -/
theorem render_again (t : Template) (entries : List (Value × Value)) :
    (∀ n before visit after, t.deliveries entries n = before ++ visit :: after →
      visit.Due (Visit.reached before)) ∧
    (∀ s, t.answer (.map entries) 0 = .ok s → ∃ s',
      (∀ n, t.answer (.map entries) (n + 1) = .ok s') ∧
        t.answer ((Value.map entries).drain (Visit.reached (t.deliveries entries 1))) 0 = .ok s') ∧
    (StreamFree (.map entries) → ∀ n, t.answer (.map entries) n = t.answer (.map entries) 0) := by
  refine ⟨fun n before visit after h => ?_, fun s => exists_settled, answer_of_streamFree⟩
  have hdelivered := t.delivered_deliveries entries n
  rw [h] at hdelivered
  have hdue := hdelivered.due
  rwa [List.append_nil] at hdue

/-- A template that shows every item of every item of a collection, a mark if there is such a collection,
and all items again. -/
def twice : Template where
  tree :=
    let row : Branch := .repeated ⟨⟨"s", [.name "s"]⟩, "x", none⟩
      [.repeated ⟨⟨"x", [.name "x"]⟩, "y", none⟩ [.text [.placeholder ⟨"y", [.name "y"]⟩ "$\x7by\x7d"]]]
    [row, .conditional ⟨false, ⟨"s", [.name "s"]⟩, .truthy⟩ [.text [.literal "!"]], row]
  source := ""
  maxOutput := some 9

/-- A stream of two letters. -/
def letters : Value := .stream 1 [.text "a", .text "b"]

/-- A stream that yields the letters twice, and a text between. -/
def streamed : List (Value × Value) := [(.text "s", .stream 0 [letters, .text "c", letters])]

/-- The same items without a stream: too many to be shown twice. -/
def listed : List (Value × Value) := [(.text "s", .list [.text "ab", .text "c", .text "ab"])]

theorem render_again_nested :
    (⟨letters, []⟩ : Visit).Due [0, 1] ∧ twice.answer (.map streamed) 0 = .ok "abc!" ∧
      twice.answer (.map streamed) 7 = .ok "!" ∧
      twice.answer ((Value.map streamed).drain [0, 1, 1, 0]) 0 = .ok "!" ∧
      StreamFree (.map listed) ∧ twice.answer (.map listed) 7 = .error (.outputLimit 9) := by
  have hfirst : twice.answer (.map streamed) 0 = .ok "abc!" := by rfl
  have hlisted : StreamFree (.map listed) := by
    refine .map (List.forall_mem_singleton.mpr (.text "s")) (List.forall_mem_singleton.mpr (.list ?_))
    simp only [List.forall_mem_cons]
    exact ⟨.text "ab", .text "c", .text "ab", nofun⟩
  -- the visits of the stream and of its items, and then of the stream in vain
  have hvisits : twice.deliveries streamed 1 = [
      ⟨.stream 0 [letters, .text "c", letters],
        [(.int 0, letters), (.int 1, .text "c"), (.int 2, letters)]⟩,
      ⟨letters, [(.int 0, .text "a"), (.int 1, .text "b")]⟩,
      ⟨.text "c", [(.int 0, .text "c")]⟩] ++ ⟨letters, []⟩ ::
      [⟨.stream 0 [letters, .text "c", letters], []⟩] := by rfl
  have hreached : Visit.reached (twice.deliveries streamed 1) = [0, 1, 1, 0] := by rfl
  obtain ⟨hdue, hsettled, -⟩ := render_again twice streamed
  obtain ⟨s, hlater, hdrained⟩ := hsettled "abc!" hfirst
  have hsecond : twice.answer (.map streamed) 1 = .ok "!" := by rfl
  obtain rfl : s = "!" := Except.ok.inj ((hlater 0).symm.trans hsecond)
  rw [hreached] at hdrained
  exact ⟨hdue 1 _ _ _ hvisits, hfirst, hlater 6, hdrained, hlisted,
    (render_again twice listed).2.2 hlisted 7⟩

end Template

end Stencil
