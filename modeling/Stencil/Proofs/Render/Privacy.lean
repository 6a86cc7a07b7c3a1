import Stencil.Proofs.Render.OutputLimit
import Stencil.Proofs.Tree.Mention
import Stencil.Proofs.Value.Privacy

/-! # Rendering keeps private attributes back

What a template writes does not depend on private attributes of the data.

* `Render.Tallies` relates two renderings that give related results, up to what they log; it is kept in
  sequence (`Tallies.bind`) and in rows (`Tallies.mapM`).
* `Branch.tallies_renderAll`: branches rendered in two scopes that are the same but for private
  attributes, whose conditions compare with scalars only.
* `Template.render_samePublic` is the result for a compiled template. -/

namespace Stencil

/-- Whether two accounts **tally**: they differ at most in what was logged. -/
structure Account.Tallies (a b : Account) : Prop where
  /-- The same number of characters was charged. -/
  used : a.used = b.used
  /-- The same streams were walked. -/
  drained : a.drained = b.drained

namespace Render

variable {α β γ δ : Type} {R : α → β → Prop} {S : γ → δ → Prop}

/-- Whether two renderings **tally** up to a relation: from accounts that tally, their results agree, and
they leave accounts that tally. -/
def Tallies (R : α → β → Prop) (x : Render α) (y : Render β) : Prop :=
  ∀ a b, a.Tallies b → Agree R (x.run a).1 (y.run b).1 ∧ (x.run a).2.Tallies (y.run b).2

/-- What returns related values at once tallies. -/
theorem tallies_pure {v : α} {w : β} (h : R v w) : Tallies R (pure v) (pure w) :=
  fun _ _ hab => ⟨.ok h, hab⟩

/-- **Renderings in a row** tally if they do so one by one. -/
theorem Tallies.bind {x : Render α} {y : Render β} {f : α → Render γ} {g : β → Render δ}
    (hxy : Tallies R x y) (hfg : ∀ v w, R v w → Tallies S (f v) (g w)) :
    Tallies S (x >>= f) (y >>= g) := by
  intro a b hab
  obtain ⟨hresult, haccount⟩ := hxy a b hab
  rw [run_bind, run_bind]
  rcases hx : x.run a with ⟨r, a'⟩
  rcases hy : y.run b with ⟨s, b'⟩
  rw [hx, hy] at hresult haccount
  cases hresult with
  | ok hvw => exact hfg _ _ hvw a' b' haccount
  | error e => exact ⟨.error e, haccount⟩

/-- Rows of renderings over related rows tally. -/
theorem Tallies.mapM {f : α → Render γ} {g : β → Render δ} {l : List α} {m : List β}
    (hlm : List.Forall₂ R l m) (hfg : ∀ v w, R v w → Tallies S (f v) (g w)) :
    Tallies (List.Forall₂ S) (l.mapM f) (m.mapM g) := by
  induction hlm with
  | nil => exact tallies_pure .nil
  | cons hvw _ ih =>
      rw [List.mapM_cons, List.mapM_cons]
      refine (hfg _ _ hvw).bind fun s t hst => ?_
      exact ih.bind fun ss ts hrest => tallies_pure (.cons hst hrest)

/-- Readings that agree tally. -/
theorem tallies_ofLimit {x : Except Limit α} {y : Except Limit β} (h : Agree R x y) :
    Tallies R (ofLimit x) (ofLimit y) := by
  intro a b hab
  cases h with
  | ok hvw => exact ⟨.ok hvw, hab⟩
  | error l => exact ⟨.error _, hab⟩

/-- Whether a rendering **returns a value** and does nothing else but log. -/
def Logs (x : Render α) (v : α) : Prop := ∀ a, (x.run a).1 = .ok v ∧ (x.run a).2.Tallies a

/-- What returns at once logs nothing. -/
theorem logs_pure (v : α) : Logs (pure v) v := fun _ => ⟨rfl, rfl, rfl⟩

/-- Noting an event only logs. -/
theorem logs_note (e : Event) : Logs (note e) () := fun _ => ⟨rfl, rfl, rfl⟩

/-- Two renderings in a row that only log. -/
theorem Logs.bind {x : Render α} {f : α → Render γ} {v : α} {w : γ} (hx : Logs x v)
    (hf : Logs (f v) w) : Logs (x >>= f) w := by
  intro a
  obtain ⟨hresult, haccount⟩ := hx a
  rw [run_bind]
  rcases hrun : x.run a with ⟨r, a'⟩
  rw [hrun] at hresult haccount
  obtain rfl : r = .ok v := hresult
  obtain ⟨hw, hlast⟩ := hf a'
  exact ⟨hw, hlast.used.trans haccount.used, hlast.drained.trans haccount.drained⟩

/-- Renderings that only log tally if they return related values, whatever they log. -/
theorem Logs.tallies {x : Render α} {y : Render β} {v : α} {w : β} (hx : Logs x v) (hy : Logs y w)
    (h : R v w) : Tallies R x y := by
  intro a b hab
  obtain ⟨hxResult, hxAccount⟩ := hx a
  obtain ⟨hyResult, hyAccount⟩ := hy b
  rw [hxResult, hyResult]
  refine ⟨.ok h, ?_, ?_⟩
  · rw [hxAccount.used, hab.used, hyAccount.used]
  · rw [hxAccount.drained, hab.drained, hyAccount.drained]

/-- Charging for the same text tallies, under any limit. -/
theorem tallies_charge (limit : Option Int) (text : String) :
    Tallies (fun _ _ => True) (charge limit text) (charge limit text) := by
  intro a b hab
  have hused : a.used + text.length = b.used + text.length := by rw [hab.used]
  cases limit with
  | none => exact ⟨.ok trivial, hused, hab.drained⟩
  | some n =>
      rw [run_charge_some, run_charge_some, hused]
      by_cases hlt : n < (b.used + text.length : Nat)
      · rw [if_pos hlt, if_pos hlt]
        exact ⟨.error _, rfl, hab.drained⟩
      · rw [if_neg hlt, if_neg hlt]
        exact ⟨.ok trivial, rfl, hab.drained⟩

/-- Walking a stream on both sides: it is walked on both, or on none. -/
theorem tallies_stream {id : Nat} {xs ys : List Value}
    (h : List.Forall₂ SamePublicPair (Value.enumerate xs) (Value.enumerate ys)) :
    Tallies (List.Forall₂ SamePublicPair) (walk (.stream id xs)) (walk (.stream id ys)) := by
  intro a b hab
  rw [run_walk_stream, run_walk_stream, hab.drained]
  by_cases hdrained : b.drained.contains id = true
  · rw [if_pos hdrained, if_pos hdrained]
    exact ⟨.ok .nil, hab⟩
  · rw [if_neg hdrained, if_neg hdrained]
    exact ⟨.ok h, hab.used, rfl⟩

/-- **Walking values** that are the same but for private attributes gives related pairs. -/
theorem tallies_walk {v w : Value} (h : SamePublic v w) :
    Tallies (List.Forall₂ SamePublicPair) (walk v) (walk w) := by
  cases h with
  | refl =>
      cases v with
      | stream id items => exact tallies_stream (SamePublic.enumerate (List.forall₂_same.mpr fun u _ => .refl u))
      | _ => exact tallies_pure (SamePublic.pairs (.refl _))
  | stream items => exact tallies_stream (SamePublic.enumerate items)
  | list items => exact tallies_pure (SamePublic.pairs (.list items))
  | tuple items => exact tallies_pure (SamePublic.pairs (.tuple items))
  | map keys values => exact tallies_pure (SamePublic.pairs (.map keys values))
  | object members => exact tallies_pure .nil

end Render

open Render

variable {scope scope' : Value}

/-! ## Texts and conditions -/

/-- A segment shows the same in related scopes. -/
theorem Segment.tallies_render (h : SamePublic scope scope') (s : Segment) :
    Tallies (· = ·) (s.render scope) (s.render scope') := by
  cases s with
  | literal text => exact tallies_pure rfl
  | placeholder path raw =>
      refine (tallies_ofLimit (h.resolve path)).bind fun v w hvw => ?_
      have hscalar : Agree (· = ·) v.scalar? w.scalar? := by
        rw [hvw.scalar]
        exact .refl (fun _ => rfl) _
      refine (tallies_ofLimit hscalar).bind fun text _ htext => ?_
      subst htext
      cases text with
      | some t => exact tallies_pure rfl
      | none =>
          have hraw : Logs (note (.unresolved raw) >>= fun _ => pure raw) raw :=
            (logs_note _).bind (logs_pure raw)
          exact hraw.tallies hraw rfl

/-- **A text branch** shows the same in related scopes, and is charged for alike. -/
theorem Segment.tallies_renderAll (h : SamePublic scope scope') (limit : Option Int)
    (segments : List Segment) :
    Tallies (· = ·) (Segment.renderAll limit scope segments) (Segment.renderAll limit scope' segments) := by
  have hself : List.Forall₂ (· = ·) segments segments := List.forall₂_same.mpr fun _ _ => rfl
  have hparts : Tallies (List.Forall₂ (· = ·)) (segments.mapM (Segment.render scope))
      (segments.mapM (Segment.render scope')) := by
    refine .mapM hself fun s _ hs => ?_
    subst hs
    exact s.tallies_render h
  refine hparts.bind fun parts parts' hequal => ?_
  rw [List.forall₂_eq_eq_eq] at hequal
  subst hequal
  exact (tallies_charge limit _).bind fun _ _ _ => tallies_pure rfl

/-- Whether a test **looks at nothing but its left side**: it asks whether that counts as true, or compares
it with a value that is written out. -/
def Test.OnLeft : Test → Prop
  | .truthy => True
  | .compare _ operand => ∃ v, operand = .literal v

/-- The left sides of a condition in related scopes are related. -/
theorem Condition.left_samePublic (h : SamePublic scope scope') (c : Condition) :
    Agree SamePublic (c.left scope) (c.left scope') := by
  refine (h.resolve c.path).bind fun v w hvw => ?_
  cases c.negated with
  | false => exact .ok hvw
  | true =>
      rw [if_pos rfl, if_pos rfl, hvw.truth]
      exact .ok (.refl _)

/-- A condition that compares with scalars only comes to the same in related scopes. -/
theorem Condition.test?_samePublic (h : SamePublic scope scope') {c : Condition} (hc : c.test.OnLeft)
    (hscalar : ∀ v ∈ c.literals, v.IsScalar) :
    Agree (fun p q => p.holds = q.holds) (c.test? scope) (c.test? scope') := by
  refine (c.left_samePublic h).bind fun v w hvw => ?_
  cases htest : c.test with
  | truthy => exact .ok hvw.truth
  | compare op operand =>
      rw [htest] at hc
      obtain ⟨r, rfl⟩ := hc
      have hr : r.IsScalar := hscalar r (by simp [literals, htest, Test.operands, Operand.literals])
      exact hvw.apply hr op

/-- **Testing a condition** that compares with scalars only. What is logged may show private attributes. -/
theorem Condition.tallies_render (h : SamePublic scope scope') {c : Condition} (hc : c.test.OnLeft)
    (hscalar : ∀ v ∈ c.literals, v.IsScalar) :
    Tallies (· = ·) (c.render scope) (c.render scope') := by
  refine (tallies_ofLimit (c.test?_samePublic h hc hscalar)).bind fun p q hholds => ?_
  -- on both sides an event is noted, or none, and then the verdict is returned
  refine Logs.tallies ?_ ?_ hholds
  all_goals
    dsimp only
    split
    · exact (logs_note _).bind (logs_pure _)
    · exact logs_pure _

/-! ## Branches -/

mutual

/-- **A branch** shows the same in related scopes, if its conditions compare with scalars only. -/
theorem Branch.tallies_render (limit : Option Int) : ∀ (b : Branch) (scope scope' : Value),
    SamePublic scope scope' →
    (∀ c ∈ b.conditions, c.test.OnLeft ∧ ∀ v ∈ c.literals, v.IsScalar) →
    Tallies (· = ·) (Branch.render limit b scope) (Branch.render limit b scope')
  | .text segments, _, _, h, _ => Segment.tallies_renderAll h limit segments
  | .conditional c children, scope, scope', h, hconditions => by
      have hc := hconditions c List.mem_cons_self
      have hchildren := Branch.tallies_renderAll limit children scope scope' h fun d hd =>
        hconditions d (List.mem_cons_of_mem _ hd)
      refine (c.tallies_render h hc.1 hc.2).bind fun holds _ hsame => ?_
      subst hsame
      cases holds with
      | true => exact hchildren
      | false => exact tallies_pure rfl
  | .repeated it children, scope, scope', h, hconditions => by
      refine (tallies_ofLimit (h.resolve it.collection)).bind fun v w hvw => ?_
      refine (tallies_walk hvw).bind fun ps qs hpairs => ?_
      -- the rounds are over related pairs, and so in related scopes
      have hrounds := Tallies.mapM hpairs fun p q hpair =>
        Branch.tallies_renderAll limit children _ _ (h.iterationBind it hpair) hconditions
      refine hrounds.bind fun parts parts' hequal => ?_
      rw [List.forall₂_eq_eq_eq] at hequal
      exact tallies_pure (congrArg String.join hequal)
termination_by structural b => b

/-- **Branches** show the same in related scopes, if their conditions compare with scalars only. -/
theorem Branch.tallies_renderAll (limit : Option Int) : ∀ (bs : List Branch) (scope scope' : Value),
    SamePublic scope scope' →
    (∀ c ∈ Branch.conditionsAll bs, c.test.OnLeft ∧ ∀ v ∈ c.literals, v.IsScalar) →
    Tallies (· = ·) (Branch.renderAll limit bs scope) (Branch.renderAll limit bs scope')
  | [], _, _, _, _ => tallies_pure rfl
  | b :: bs, scope, scope', h, hconditions => by
      have hfirst := Branch.tallies_render limit b scope scope' h fun c hc =>
        hconditions c (List.mem_append_left _ hc)
      have hrest := Branch.tallies_renderAll limit bs scope scope' h fun c hc =>
        hconditions c (List.mem_append_right _ hc)
      refine hfirst.bind fun s _ hs => ?_
      refine hrest.bind fun t _ ht => ?_
      subst hs ht
      exact tallies_pure rfl
termination_by structural bs => bs

end

/-! ## Templates -/

/-- A value that is written out as an operand is a scalar. -/
theorem Operand.isScalar_of_parse {token : String} {v : Value} (h : parse token = .ok (.literal v)) :
    v.IsScalar := by
  unfold parse at h
  dsimp only at h
  split at h
  · rename_i hkeyword
    cases h
    unfold keyword? at hkeyword
    split at hkeyword <;> cases hkeyword <;> constructor
  · split at h
    · cases h
      exact .text _
    · split at h
      · cases h
      · rename_i n _
        cases h
        cases n <;> constructor
      · obtain ⟨path, -, hpath⟩ := map_eq_ok_iff.mp h
        cases hpath

/-- **The values that a condition compares with** are scalars, if the condition was read. -/
theorem Condition.IsRead.isScalar {c : Condition} (h : c.IsRead) : ∀ v ∈ c.literals, v.IsScalar := by
  obtain ⟨arguments, offset, h⟩ := h
  unfold parse at h
  dsimp only at h
  intro v hv
  split at h
  · cases h
  · obtain ⟨path, -, h⟩ := bind_eq_ok_iff.mp h
    split at h
    · cases h
      cases hv
    · split at h
      · cases h
      · obtain ⟨operand, hoperand, h⟩ := bind_eq_ok_iff.mp h
        cases h
        cases operand with
        | path p => cases hv
        | literal w =>
            obtain rfl := List.mem_singleton.mp hv
            exact Operand.isScalar_of_parse (mapError_eq_ok_iff.mp hoperand)

namespace Template

/-- **Private attributes do not reach the output.** If no condition of a compiled template compares with
what a path finds, then data that are the same but for private attributes are rendered alike: to the same
text, or with the same error. The accounts that are left differ at most in what was logged, so that this
holds as often as the data are rendered. -/
theorem render_samePublic {source : String} {config : Config} {t : Template}
    (ht : compile source config = .ok t) (htests : ∀ c ∈ Branch.conditionsAll t.tree, c.test.OnLeft)
    {es fs : List (Value × Value)} (h : SamePublic (.map es) (.map fs)) {a b : Account}
    (hab : a.Tallies b) :
    ((t.render (.map es)).run a).1 = ((t.render (.map fs)).run b).1 ∧
      ((t.render (.map es)).run a).2.Tallies ((t.render (.map fs)).run b).2 := by
  have htree := Branch.tallies_renderAll t.maxOutput t.tree (.map es) (.map fs) h fun c hc =>
    ⟨htests c hc, (conditionsRead_of_compile ht c hc).isScalar⟩
  -- charging begins anew
  obtain ⟨hresult, haccount⟩ := htree { a with used := 0 } { b with used := 0 } ⟨rfl, hab.drained⟩
  exact ⟨hresult.eq, haccount⟩

/-- A repetition over users that asks for a private attribute in brackets and for a public one with a dot,
and compares a user with a number. -/
def prying : String :=
  "$\x7b#each us as u\x7d$\x7bu['_k']\x7d$\x7bu.n\x7d$\x7b#if u==3\x7d!$\x7b#end if\x7d$\x7b#end each\x7d"

/-- Its tree. -/
def pryingTree : List Branch :=
  [.repeated ⟨⟨"us", [.name "us"]⟩, "u", none⟩
    [.text [.placeholder ⟨"u['_k']", [.name "u", .name "_k"]⟩ "$\x7bu['_k']\x7d",
      .placeholder ⟨"u.n", [.name "u", .name "n"]⟩ "$\x7bu.n\x7d"],
    .conditional ⟨false, ⟨"u", [.name "u"]⟩, .compare .same (.literal (.int 3))⟩
      [.text [.literal "!"]]]]

/-- A user who has a name and no key. -/
def keyless : Value := .object [("n", .text "ada")]

/-- A user of the same name who has a key. -/
def keyed : Value := .object [("_k", .text "key"), ("n", .text "ada")]

/-- A stream of one user. -/
def crowd (user : Value) : List (Value × Value) := [(.text "us", .stream 0 [user])]

/-- The two users are the same but for the key. -/
theorem keyless_keyed : SamePublic keyless keyed := by
  refine .object fun name hname => ?_
  have hkey : ("_k" == name) = false := by
    rw [beq_eq_false_iff_ne]
    rintro rfl
    have hprivate : Value.isPrivate "_k" = true := by decide +kernel
    rw [hprivate] at hname
    cases hname
  have hsame : (Value.object [("_k", .text "key"), ("n", .text "ada")]).attribute? name =
      (Value.object [("n", .text "ada")]).attribute? name := by
    simp [Value.attribute?, List.find?_cons, hkey]
  rw [hsame]
  exact SamePublic.option_refl _

theorem render_samePublic_prying :
    compile prying {} = .ok ⟨pryingTree, prying, none⟩ ∧
    (∀ c ∈ Branch.conditionsAll pryingTree, c.test.OnLeft) ∧
    SamePublic (.map (crowd keyless)) (.map (crowd keyed)) ∧
    (((render ⟨pryingTree, prying, none⟩ (.map (crowd keyless))).run .start).1 =
        ((render ⟨pryingTree, prying, none⟩ (.map (crowd keyed))).run .start).1 ∧
      ((render ⟨pryingTree, prying, none⟩ (.map (crowd keyless))).run .start).2.Tallies
        ((render ⟨pryingTree, prying, none⟩ (.map (crowd keyed))).run .start).2) ∧
    ((render ⟨pryingTree, prying, none⟩ (.map (crowd keyed))).run .start).1 =
      .ok "$\x7bu['_k']\x7dada" := by
  have hscan : Token.scan prying = [.opening 0 "each" "us as u",
      .text 16 "$\x7bu['_k']\x7d$\x7bu.n\x7d", .opening 32 "if" "u==3",
      .text 43 "!", .closing 44 "if", .closing 54 "each"] := by with_unfolding_all rfl
  have heach : Iteration.parse "us as u" (some 0) = .ok ⟨⟨"us", [.name "us"]⟩, "u", none⟩ := by
    decide +kernel
  have htext : Segment.scan "$\x7bu['_k']\x7d$\x7bu.n\x7d" =
      .ok [.placeholder ⟨"u['_k']", [.name "u", .name "_k"]⟩ "$\x7bu['_k']\x7d",
        .placeholder ⟨"u.n", [.name "u", .name "n"]⟩ "$\x7bu.n\x7d"] := by decide +kernel
  have hif : Condition.parse "u==3" (some 32) =
      .ok ⟨false, ⟨"u", [.name "u"]⟩, .compare .same (.literal (.int 3))⟩ := by
    with_unfolding_all rfl
  have hmark : Segment.scan "!" = .ok [.literal "!"] := by with_unfolding_all rfl
  have hbuild : Tree.build (Token.scan prying) none = .ok pryingTree :=
    Tree.build_eq_ok_iff.mpr ⟨.directive 0 "each" "us as u"
      (.text 16 _ (.directive 32 "if" "u==3" (.text 43 "!" .empty) 44 .empty)) 54 .empty, hscan.symm,
      .repeated heach (.text htext (.conditional hif (.text hmark .empty) .empty)) .empty⟩
  have ht : compile prying {} = .ok ⟨pryingTree, prying, none⟩ := by
    rw [compile, hbuild]
    rfl
  have htests : ∀ c ∈ Branch.conditionsAll pryingTree, c.test.OnLeft := by
    intro c hc
    obtain rfl := List.mem_singleton.mp hc
    exact ⟨_, rfl⟩
  have hdata : SamePublic (.map (crowd keyless)) (.map (crowd keyed)) :=
    .ofEntries (.cons ⟨.refl _, .stream (.cons keyless_keyed .nil)⟩ .nil)
  exact ⟨ht, htests, hdata, render_samePublic ht htests hdata ⟨rfl, rfl⟩, by decide +kernel⟩

end Template

end Stencil
