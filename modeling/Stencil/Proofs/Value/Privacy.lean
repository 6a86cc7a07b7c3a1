import Stencil.Condition.Basic
import Stencil.Proofs.Value.Matching
import Stencil.Proofs.Value.Scope

/-! # Private attributes

Which values cannot be told apart by what paths, tests and placeholders see of them.

* `SamePublic` relates values that are equal but for attributes with private names, at any depth.
* `SamePublic.resolve` and `SamePublic.pairs`: what a path finds in such values, and what an iteration
  walks, is again related.
* `SamePublic.truth`, `SamePublic.scalar` and `SamePublic.apply`: such values count alike as true, have the
  same text, and compare alike with a scalar. -/

namespace Stencil

/-- Whether the name of an attribute is **private**: it begins with an underscore. -/
def Value.isPrivate (name : String) : Bool := name.startsWith "_"

/-- Whether two values are **the same but for private attributes** of the records in them, which may
differ in presence and value. The public attributes may stand in any order. -/
inductive SamePublic : Value → Value → Prop
  | refl (v : Value) : SamePublic v v
  | list {xs ys : List Value} (items : List.Forall₂ SamePublic xs ys) :
      SamePublic (.list xs) (.list ys)
  | tuple {xs ys : List Value} (items : List.Forall₂ SamePublic xs ys) :
      SamePublic (.tuple xs) (.tuple ys)
  | stream {id : Nat} {xs ys : List Value} (items : List.Forall₂ SamePublic xs ys) :
      SamePublic (.stream id xs) (.stream id ys)
  | map {es fs : List (Value × Value)}
      (keys : List.Forall₂ SamePublic (es.map Prod.fst) (fs.map Prod.fst))
      (values : List.Forall₂ SamePublic (es.map Prod.snd) (fs.map Prod.snd)) :
      SamePublic (.map es) (.map fs)
  | object {as bs : List (String × Value)}
      (members : ∀ name, Value.isPrivate name = false →
        Option.Rel SamePublic ((Value.object as).attribute? name) ((Value.object bs).attribute? name)) :
      SamePublic (.object as) (.object bs)

/-- Whether two pairs of key and value are the same but for private attributes. -/
def SamePublicPair (p q : Value × Value) : Prop := SamePublic p.1 q.1 ∧ SamePublic p.2 q.2

/-- Whether a value is a **scalar**: a text, a number, a truth value or nothing. -/
inductive Value.IsScalar : Value → Prop
  | null : IsScalar .null
  | undefined : IsScalar .undefined
  | bool (b : Bool) : IsScalar (.bool b)
  | int (n : Int) : IsScalar (.int n)
  | float (x : Double) : IsScalar (.float x)
  | text (s : String) : IsScalar (.text s)

namespace SamePublic

variable {v w : Value}

/-- Values that may both be missing are related to themselves. -/
theorem option_refl (x : Option Value) : Option.Rel SamePublic x x := by
  cases x with
  | none => exact .none
  | some v => exact .some (.refl v)

/-- What is missing is undefined. -/
theorem getD {x y : Option Value} (h : Option.Rel SamePublic x y) :
    SamePublic (x.getD .undefined) (y.getD .undefined) := by
  cases h with
  | none => exact .refl _
  | some h => exact h

/-! ## Mappings -/

/-- Mappings are related if their entries are, one by one. -/
theorem ofEntries {es fs : List (Value × Value)} (h : List.Forall₂ SamePublicPair es fs) :
    SamePublic (.map es) (.map fs) := by
  obtain ⟨keys, values⟩ := forall₂_pairs_iff.mp h
  exact .map keys values

/-- The entries of related mappings are related, one by one. -/
theorem entries {es fs : List (Value × Value)} (h : SamePublic (.map es) (.map fs)) :
    List.Forall₂ SamePublicPair es fs := by
  cases h with
  | refl => exact List.forall₂_same.mpr fun e _ => ⟨.refl e.1, .refl e.2⟩
  | map keys values => exact forall₂_pairs_iff.mpr ⟨keys, values⟩

/-- A scalar equals related values alike. -/
theorem equal_scalar {a : Value} (ha : a.IsScalar) (h : SamePublic v w) : a.equal v = a.equal w := by
  cases h with
  | refl => rfl
  | _ => cases ha <;> rfl

/-- The key of a path is a scalar. -/
theorem isScalar_key (key : Key) : key.value.IsScalar := by
  cases key with
  | index n => exact .int n
  | name s => exact .text s

/-- A scalar finds related values in related mappings. -/
theorem lookup? {key : Value} (hkey : key.IsScalar) {es fs : List (Value × Value)}
    (h : List.Forall₂ SamePublicPair es fs) :
    Option.Rel SamePublic (Value.lookup? key es) (Value.lookup? key fs) := by
  induction h with
  | nil => exact .none
  | cons hpair _ ih =>
      rw [Value.lookup?_cons, Value.lookup?_cons, equal_scalar hkey hpair.1]
      split
      · exact .some hpair.2
      · exact ih

/-- **A key finds** related values in related mappings. -/
theorem entry {es fs : List (Value × Value)} (h : List.Forall₂ SamePublicPair es fs) (key : Key) :
    Agree SamePublic (Value.entry es key) (Value.entry fs key) := by
  have hown := lookup? (isScalar_key key) h
  unfold Value.entry
  generalize Value.lookup? key.value es = x at hown ⊢
  generalize Value.lookup? key.value fs = y at hown ⊢
  cases hown with
  | some hvw => exact .ok hvw
  | none =>
      -- neither mapping has the key itself, so that its other spelling is looked up in both
      cases hother : key.other? with
      | error l => exact .error l
      | ok other =>
          cases other with
          | none => exact .ok (.refl _)
          | some k =>
              obtain ⟨other, rfl⟩ := Key.exists_of_other? hother
              exact .ok (getD (lookup? (isScalar_key other) h))

/-! ## What a path finds -/

/-- The items of related rows are related, place by place. -/
theorem getElem? {xs ys : List Value} (h : List.Forall₂ SamePublic xs ys) (i : Nat) :
    Option.Rel SamePublic xs[i]? ys[i]? := by
  induction h generalizing i with
  | nil => exact .none
  | cons hvw _ ih =>
      cases i with
      | zero => exact .some hvw
      | succ i => exact ih i

/-- **A key finds** related values in two sequences whose items are related. -/
theorem element (hitems : ∀ i, Option.Rel SamePublic (v.item? i) (w.item? i))
    (hfits : v.lengthFits = w.lengthFits) (key : Key) :
    Agree SamePublic (v.element key) (w.element key) := by
  have hposition : Agree (· = ·) key.position? key.position? := .refl (fun _ => rfl) _
  refine hposition.bind fun position _ hsame => ?_
  subst hsame
  cases position with
  | none => exact .ok (.refl _)
  | some i =>
      dsimp only
      rw [hfits]
      by_cases hnegative : i < 0
      · rw [if_pos hnegative, if_pos hnegative]
        exact .ok (.refl _)
      · rw [if_neg hnegative, if_neg hnegative]
        by_cases hlength : w.lengthFits = true
        · rw [if_pos hlength, if_pos hlength]
          exact .ok (getD (hitems _))
        · rw [if_neg hlength, if_neg hlength]
          exact .error _

/-- **One step of a path** leads from related values to related ones: it looks at public attributes
only. -/
theorem step (h : SamePublic v w) (key : Key) : Agree SamePublic (v.step key) (w.step key) := by
  cases h with
  | refl => exact .refl .refl _
  | @list xs ys items =>
      have hitems : ∀ i, Option.Rel SamePublic ((Value.list xs).item? i) ((Value.list ys).item? i) :=
        getElem? items
      exact element hitems rfl key
  | @tuple xs ys items =>
      have hitems : ∀ i, Option.Rel SamePublic ((Value.tuple xs).item? i) ((Value.tuple ys).item? i) :=
        getElem? items
      exact element hitems rfl key
  | stream items => exact .refl .refl _
  | map keys values => exact entry (entries (.map keys values)) key
  | object members =>
      cases key with
      | index n => exact .ok (.refl _)
      | name s =>
          show Agree SamePublic (.ok (if Value.isPrivate s then _ else _))
            (.ok (if Value.isPrivate s then _ else _))
          by_cases hprivate : Value.isPrivate s = true
          · rw [if_pos hprivate, if_pos hprivate]
            exact .ok (.refl _)
          · rw [if_neg hprivate, if_neg hprivate]
            exact .ok (getD (members s (Bool.not_eq_true _ ▸ hprivate)))

/-- Keys lead from related values to related ones. -/
theorem follow (h : SamePublic v w) (keys : List Key) :
    Agree SamePublic (v.follow keys) (w.follow keys) := by
  induction keys generalizing v w with
  | nil => exact .ok h
  | cons key keys ih => exact (h.step key).bind fun _ _ hstep => ih hstep

/-- **A path finds** related values in related values. -/
theorem resolve (h : SamePublic v w) (path : Path) :
    Agree SamePublic (v.resolve path) (w.resolve path) := h.follow path.keys

/-! ## What an iteration walks -/

/-- Related rows are related with their positions. -/
theorem enumerate {xs ys : List Value} (h : List.Forall₂ SamePublic xs ys) :
    List.Forall₂ SamePublicPair (Value.enumerate xs) (Value.enumerate ys) := by
  have hmapIdx : ∀ f : Nat → Value,
      List.Forall₂ SamePublicPair (xs.mapIdx fun i v => (f i, v)) (ys.mapIdx fun i v => (f i, v)) := by
    -- the positions are those of an arbitrary numbering, which the tail of a row begins later
    induction h with
    | nil => exact fun _ => .nil
    | cons hvw _ ih =>
        intro f
        rw [List.mapIdx_cons, List.mapIdx_cons]
        exact .cons ⟨.refl _, hvw⟩ (ih fun i => f (i + 1))
  exact hmapIdx fun i => .int i

/-- **An iteration walks** related pairs in related values. -/
theorem pairs (h : SamePublic v w) : List.Forall₂ SamePublicPair v.pairs w.pairs := by
  cases h with
  | refl => exact List.forall₂_same.mpr fun p _ => ⟨.refl p.1, .refl p.2⟩
  | list items => exact enumerate items
  | tuple items => exact enumerate items
  | stream items => exact enumerate items
  | map keys values => exact entries (.map keys values)
  | object members => exact .nil

/-- Setting the value of a name keeps mappings related. -/
theorem setEntry (name : String) (h : SamePublic v w) {es fs : List (Value × Value)}
    (hentries : List.Forall₂ SamePublicPair es fs) :
    List.Forall₂ SamePublicPair (Value.setEntry (.text name) v es)
      (Value.setEntry (.text name) w fs) := by
  induction hentries with
  | nil => exact .cons ⟨.refl _, h⟩ .nil
  | @cons e f es fs hpair hrest ih =>
      obtain ⟨k, x⟩ := e
      obtain ⟨l, y⟩ := f
      rw [Value.setEntry, Value.setEntry, equal_scalar (.text name) hpair.1]
      by_cases hkey : (Value.text name).equal l = true
      · rw [if_pos hkey, if_pos hkey]
        exact .cons ⟨hpair.1, h⟩ hrest
      · rw [if_neg hkey, if_neg hkey]
        exact .cons hpair ih

/-- Binding a name keeps scopes related. -/
theorem bind {scope scope' : Value} (hscope : SamePublic scope scope') (name : String)
    (h : SamePublic v w) : SamePublic (scope.bind name v) (scope'.bind name w) := by
  cases hscope with
  | refl =>
      cases scope with
      | map es => exact ofEntries (setEntry name h (entries (.refl _)))
      | _ => exact .refl _
  | list items => exact .list items
  | tuple items => exact .tuple items
  | stream items => exact .stream items
  | map keys values => exact ofEntries (setEntry name h (entries (.map keys values)))
  | object members => exact .object members

/-- **The scopes of a round** over related pairs are related. -/
theorem iterationBind {scope scope' : Value} (hscope : SamePublic scope scope') (it : Iteration)
    {p q : Value × Value} (hpair : SamePublicPair p q) :
    SamePublic (it.bind scope p) (it.bind scope' q) := by
  have hvalue := hscope.bind it.valueName hpair.2
  unfold Iteration.bind
  cases it.keyName with
  | none => exact hvalue
  | some name => exact hvalue.bind name hpair.1

/-! ## What is shown and compared -/

/-- **Related values count alike as true.** -/
theorem truth (h : SamePublic v w) : v.truth = w.truth := by
  cases h with
  | refl | stream | object => rfl
  -- rows that are related item by item are both empty or both not
  | list items => cases items <;> rfl
  | tuple items => cases items <;> rfl
  | map keys values =>
      have hentries := entries (.map keys values)
      cases hentries <;> rfl

/-- **Related values have the same text**, or none. -/
theorem scalar (h : SamePublic v w) : v.scalar? = w.scalar? := by
  cases h <;> rfl

/-- Related values are strictly equal to the same scalars. -/
theorem strictEqual {a : Value} (ha : a.IsScalar) (h : SamePublic v w) :
    v.strictEqual a = w.strictEqual a := by
  cases h with
  | refl => rfl
  | _ => cases ha <;> rfl

/-- Related values stand in the same order to a scalar. -/
theorem order {a : Value} (ha : a.IsScalar) (h : SamePublic v w) (op : Operator) :
    Agree (fun p q => p.holds = q.holds) (op.order v a) (op.order w a) := by
  cases h with
  | refl =>
      refine .refl (fun verdict => ?_) _
      rfl
  -- no order is defined between a value with parts and a scalar
  | _ => cases ha <;> exact .ok rfl

/-- **Related values compare alike** with a scalar. -/
theorem apply {a : Value} (ha : a.IsScalar) (h : SamePublic v w) (op : Operator) :
    Agree (fun p q => p.holds = q.holds) (op.apply v a) (op.apply w a) := by
  have hequal := h.strictEqual ha
  cases op with
  | same => exact .ok hequal
  | different => exact .ok (congrArg Bool.not hequal)
  | less => exact h.order ha .less
  | greater => exact h.order ha .greater
  | atMost => exact h.order ha .atMost
  | atLeast => exact h.order ha .atLeast

end SamePublic

end Stencil
