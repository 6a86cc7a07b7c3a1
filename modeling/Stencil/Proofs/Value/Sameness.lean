import Stencil.Proofs.Value.Matching
import Stencil.Value.Equality

/-! # What equality means

The relation that the equality of items decides, said without any order of evaluation.

* `Same`: numbers and truth values at one point of the number line are the same, a NaN is the same as its
  own occurrence, and collections are the same if their parts match.
* `Same.refl`, `Same.symm` and `Same.trans`: it is an equivalence. -/

namespace Stencil

/-! ## Numbers and ranges -/

namespace Number

/-- Whether two numbers **coincide**: they stand for the same point, or are the same NaN. -/
def Coincides (m n : Number) : Prop := m.position? = n.position? ∧ (m.position? = none → m = n)

/-- Equality of numbers decides whether they coincide. -/
theorem equal_iff {m n : Number} : m.equal n = true ↔ m.Coincides n := by
  unfold equal Coincides
  cases m.position? <;> cases n.position? <;> simp

/-- A number coincides with itself. -/
theorem Coincides.refl (m : Number) : m.Coincides m := ⟨rfl, fun _ => rfl⟩

/-- Exchanging two numbers that coincide. -/
theorem Coincides.symm {m n : Number} (h : m.Coincides n) : n.Coincides m :=
  ⟨h.1.symm, fun hnan => (h.2 (h.1.trans hnan)).symm⟩

/-- Numbers that coincide with one coincide. -/
theorem Coincides.trans {l m n : Number} (h : l.Coincides m) (k : m.Coincides n) : l.Coincides n :=
  ⟨h.1.trans k.1, fun hnan => (h.2 hnan).trans (k.2 (h.1.symm.trans hnan))⟩

end Number

namespace Value

/-- Equality of ranges decides whether they hold the same integers in the same order. -/
theorem rangeEqual_iff {a b c d e f : Int} :
    rangeEqual (a, b, c) (d, e, f) = true ↔ rangeItems a b c = rangeItems d e f := by
  unfold rangeEqual rangeItems
  dsimp only
  generalize rangeLength a b c = m
  generalize rangeLength d e f = n
  constructor
  · intro h
    simp only [Bool.and_eq_true, Bool.or_eq_true, beq_iff_eq] at h
    obtain ⟨rfl, rfl | ⟨rfl, rfl | rfl⟩⟩ := h
    · rfl
    · simp [List.range_succ]
    · rfl
  · intro h
    have hlength : m = n := by simpa using congrArg List.length h
    subst hlength
    have hitem : ∀ i < m, a + i * c = d + i * f := fun i hi =>
      List.map_inj_left.mp h i (List.mem_range.mpr hi)
    -- the first item gives the start, the second one the step
    have hstart : 0 < m → a = d := fun hm => by simpa using hitem 0 hm
    have hstep : 1 < m → a + c = d + f := fun hm => by simpa using hitem 1 hm
    simp only [Bool.and_eq_true, Bool.or_eq_true, beq_iff_eq, true_and]
    rcases m with _ | _ | m
    · exact .inl rfl
    · exact .inr ⟨hstart (by omega), .inl rfl⟩
    · have := hstart (by omega)
      have := hstep (by omega)
      exact .inr ⟨by omega, .inr (by omega)⟩

/-! ## Induction over values -/

/-- Whether a value is an **atom** for equality: anything but a list, a tuple, a mapping and a record. -/
def isAtom : Value → Bool
  | .list _ | .tuple _ | .map _ | .object _ => false
  | _ => true

/-- **Induction over a value** and the values in it: atoms, and the four kinds of collections from what
they hold. -/
@[elab_as_elim]
theorem induction {motive : Value → Prop} (atom : ∀ v : Value, v.isAtom = true → motive v)
    (list : ∀ items, (∀ v ∈ items, motive v) → motive (.list items))
    (tuple : ∀ items, (∀ v ∈ items, motive v) → motive (.tuple items))
    (map : ∀ entries, (∀ e ∈ entries, motive e.1 ∧ motive e.2) → motive (.map entries))
    (object : ∀ attributes, (∀ e ∈ attributes, motive e.2) → motive (.object attributes))
    (v : Value) : motive v :=
  -- the rows of items, entries and attributes have motives of their own: that of all their values
  @Value.rec motive (fun items => ∀ v ∈ items, motive v)
    (fun entries => ∀ e ∈ entries, motive e.1 ∧ motive e.2) (fun attributes => ∀ e ∈ attributes, motive e.2)
    (fun e => motive e.1 ∧ motive e.2) (fun e => motive e.2)
    (atom _ rfl) (atom _ rfl) (fun _ => atom _ rfl) (fun _ => atom _ rfl) (fun _ => atom _ rfl)
    (fun _ => atom _ rfl) (fun _ => atom _ rfl) list tuple map object (fun _ _ _ => atom _ rfl)
    (fun _ _ _ => atom _ rfl) (fun _ => atom _ rfl)
    nofun (fun _ _ hfirst hrest => List.forall_mem_cons.mpr ⟨hfirst, hrest⟩)
    nofun (fun _ _ hfirst hrest => List.forall_mem_cons.mpr ⟨hfirst, hrest⟩)
    nofun (fun _ _ hfirst hrest => List.forall_mem_cons.mpr ⟨hfirst, hrest⟩)
    (fun _ _ hkey hvalue => ⟨hkey, hvalue⟩) (fun _ _ hvalue => hvalue) v

end Value

/-! ## Atoms -/

/-- Whether two atoms are **the same**: numbers and truth values by the point they stand for, ranges by
their integers, streams by identity. -/
inductive SameAtom : Value → Value → Prop
  | null : SameAtom .null .null
  | undefined : SameAtom .undefined .undefined
  | number {a b : Value} {m n : Number} (left : a.number? = some m) (right : b.number? = some n)
      (coincide : m.Coincides n) : SameAtom a b
  | text (s : String) : SameAtom (.text s) (.text s)
  | bytes (bs : List UInt8) : SameAtom (.bytes bs) (.bytes bs)
  | range {a b c d e f : Int} (items : Value.rangeItems a b c = Value.rangeItems d e f) :
      SameAtom (.range a b c) (.range d e f)
  | stream (id : Nat) (xs ys : List Value) : SameAtom (.stream id xs) (.stream id ys)
  | callable (f : Callable) : SameAtom (.callable f) (.callable f)

namespace SameAtom

variable {a b c : Value}

/-- Equality of atoms decides whether they are the same. -/
theorem atomEqual_iff : Value.atomEqual a b = true ↔ SameAtom a b := by
  constructor
  · intro h
    unfold Value.atomEqual at h
    split at h
    · rename_i m n hm hn
      exact .number hm hn (Number.equal_iff.mp h)
    · cases h
    · cases h
    · split at h
      · exact .null
      · exact .undefined
      · rw [beq_iff_eq.mp h]; exact .text _
      · rw [beq_iff_eq.mp h]; exact .bytes _
      · exact .range (Value.rangeEqual_iff.mp h)
      · rw [beq_iff_eq.mp h]; exact .stream _ _ _
      · rw [beq_iff_eq.mp h]; exact .callable _
      · cases h
  · intro h
    cases h with
    | number left right coincide =>
        simpa only [Value.atomEqual, left, right] using Number.equal_iff.mpr coincide
    | range items => exact Value.rangeEqual_iff.mpr items
    | _ => simp [Value.atomEqual, Value.number?]

/-- A value with a number is an atom. -/
theorem isAtom_of_number? {m : Number} (h : a.number? = some m) : a.isAtom = true := by
  cases a with
  | list | tuple | map | object => cases h
  | _ => rfl

/-- What is the same as an atom is one. -/
theorem isAtom (h : SameAtom a b) : b.isAtom = true := by
  cases h with
  | number _ right _ => exact isAtom_of_number? right
  | _ => rfl

/-- An atom is the same as itself. -/
theorem refl (h : a.isAtom = true) : SameAtom a a := by
  cases a with
  | list | tuple | map | object => cases h
  | bool | int | float => exact .number rfl rfl (.refl _)
  | null => exact .null
  | undefined => exact .undefined
  | text s => exact .text s
  | bytes bs => exact .bytes bs
  | range => exact .range rfl
  | stream id xs => exact .stream id xs xs
  | callable f => exact .callable f

/-- Exchanging two atoms. -/
theorem symm (h : SameAtom a b) : SameAtom b a := by
  cases h with
  | number left right coincide => exact .number right left coincide.symm
  | range items => exact .range items.symm
  | null => exact .null
  | undefined => exact .undefined
  | text s => exact .text s
  | bytes bs => exact .bytes bs
  | stream id xs ys => exact .stream id ys xs
  | callable f => exact .callable f

/-- Composing atoms that are the same. -/
theorem trans (h : SameAtom a b) (k : SameAtom b c) : SameAtom a c := by
  cases h with
  | number left right coincide =>
      cases k with
      | number left' right' coincide' =>
          cases right.symm.trans left'
          exact .number left right' (coincide.trans coincide')
      | _ => cases right
  | range items =>
      cases k with
      | number left _ _ => cases left
      | range rest => exact .range (items.trans rest)
  | stream id xs ys =>
      cases k with
      | number left _ _ => cases left
      | stream _ _ zs => exact .stream id xs zs
  | _ => exact k

end SameAtom

/-! ## Values -/

/-- Whether two values are **the same**: atoms as such, lists and tuples item by item. The entries of a
mapping and the attributes of a record may stand in any order. -/
inductive Same : Value → Value → Prop
  | atom {a b : Value} (same : SameAtom a b) : Same a b
  | list {xs ys : List Value} (items : List.Forall₂ Same xs ys) : Same (.list xs) (.list ys)
  | tuple {xs ys : List Value} (items : List.Forall₂ Same xs ys) : Same (.tuple xs) (.tuple ys)
  | map {es fs gs : List (Value × Value)} (keys : List.Forall₂ Same (es.map Prod.fst) (gs.map Prod.fst))
      (values : List.Forall₂ Same (es.map Prod.snd) (gs.map Prod.snd)) (order : gs.Perm fs) :
      Same (.map es) (.map fs)
  | object {as bs cs : List (String × Value)} (names : as.map Prod.fst = cs.map Prod.fst)
      (values : List.Forall₂ Same (as.map Prod.snd) (cs.map Prod.snd)) (order : cs.Perm bs) :
      Same (.object as) (.object bs)

/-- Whether two entries of mappings are the same. -/
def SameEntry (p q : Value × Value) : Prop := Same p.1 q.1 ∧ Same p.2 q.2

/-- Whether two attributes of records are the same. -/
def SameAttribute (p q : String × Value) : Prop := p.1 = q.1 ∧ Same p.2 q.2

namespace Same

variable {a b c : Value}

/-! ### What is the same as a value of one kind -/

/-- What is the same as an atom. -/
theorem atom_iff (ha : a.isAtom = true) : Same a b ↔ SameAtom a b := by
  refine ⟨fun h => ?_, .atom⟩
  cases h with
  | atom same => exact same
  | _ => cases ha

/-- What is the same as a list. -/
theorem list_iff {xs : List Value} :
    Same (.list xs) b ↔ ∃ ys, b = .list ys ∧ List.Forall₂ Same xs ys := by
  constructor
  · intro h
    cases h with
    | atom same => cases same.symm.isAtom
    | list items => exact ⟨_, rfl, items⟩
  · rintro ⟨ys, rfl, items⟩
    exact .list items

/-- What is the same as a tuple. -/
theorem tuple_iff {xs : List Value} :
    Same (.tuple xs) b ↔ ∃ ys, b = .tuple ys ∧ List.Forall₂ Same xs ys := by
  constructor
  · intro h
    cases h with
    | atom same => cases same.symm.isAtom
    | tuple items => exact ⟨_, rfl, items⟩
  · rintro ⟨ys, rfl, items⟩
    exact .tuple items

/-- What is the same as a mapping. -/
theorem map_iff {es : List (Value × Value)} :
    Same (.map es) b ↔ ∃ fs, b = .map fs ∧ Matched SameEntry es fs := by
  constructor
  · intro h
    cases h with
    | atom same => cases same.symm.isAtom
    | map keys values order => exact ⟨_, rfl, _, forall₂_pairs_iff.mpr ⟨keys, values⟩, order⟩
  · rintro ⟨fs, rfl, gs, entries, order⟩
    obtain ⟨keys, values⟩ := forall₂_pairs_iff.mp entries
    exact .map keys values order

/-- What is the same as a record. -/
theorem object_iff {as : List (String × Value)} :
    Same (.object as) b ↔ ∃ bs, b = .object bs ∧ Matched SameAttribute as bs := by
  constructor
  · intro h
    cases h with
    | atom same => cases same.symm.isAtom
    | object names values order =>
        rw [← List.forall₂_eq_eq_eq] at names
        exact ⟨_, rfl, _, forall₂_pairs_iff.mpr ⟨names, values⟩, order⟩
  · rintro ⟨bs, rfl, cs, attributes, order⟩
    obtain ⟨names, values⟩ := forall₂_pairs_iff.mp attributes
    rw [List.forall₂_eq_eq_eq] at names
    exact .object names values order

/-! ### The laws of an equivalence -/

/-- **A value is the same as itself.** -/
theorem refl (a : Value) : Same a a := by
  induction a using Value.induction with
  | atom v hv => exact .atom (.refl hv)
  | list items ih => exact .list (List.forall₂_same.mpr ih)
  | tuple items ih => exact .tuple (List.forall₂_same.mpr ih)
  | map entries ih => exact map_iff.mpr ⟨entries, rfl, .refl ih⟩
  | object attributes ih =>
      exact object_iff.mpr ⟨attributes, rfl, .refl fun e he => ⟨rfl, ih e he⟩⟩

/-- **Exchanging** two values that are the same. -/
theorem symm (h : Same a b) : Same b a := by
  induction a using Value.induction generalizing b with
  | atom v hv => exact .atom ((atom_iff hv).mp h).symm
  | list items ih =>
      obtain ⟨ys, rfl, hitems⟩ := list_iff.mp h
      exact .list (Matched.forall₂_symm hitems fun v hv _ => ih v hv)
  | tuple items ih =>
      obtain ⟨ys, rfl, hitems⟩ := tuple_iff.mp h
      exact .tuple (Matched.forall₂_symm hitems fun v hv _ => ih v hv)
  | map entries ih =>
      obtain ⟨fs, rfl, hentries⟩ := map_iff.mp h
      refine map_iff.mpr ⟨entries, rfl, hentries.symm fun e he _ hsame => ?_⟩
      exact ⟨(ih e he).1 hsame.1, (ih e he).2 hsame.2⟩
  | object attributes ih =>
      obtain ⟨bs, rfl, hattributes⟩ := object_iff.mp h
      refine object_iff.mpr ⟨attributes, rfl, hattributes.symm fun e he _ hsame => ?_⟩
      exact ⟨hsame.1.symm, ih e he hsame.2⟩

/-- **Composing**: values that are the same as one value are the same. -/
theorem trans (h : Same a b) (k : Same b c) : Same a c := by
  induction a using Value.induction generalizing b c with
  | atom v hv =>
      have hatom := (atom_iff hv).mp h
      exact .atom (hatom.trans ((atom_iff hatom.isAtom).mp k))
  | list items ih =>
      obtain ⟨ys, rfl, hxy⟩ := list_iff.mp h
      obtain ⟨zs, rfl, hyz⟩ := list_iff.mp k
      exact .list (Matched.forall₂_trans hxy hyz fun v hv _ _ => ih v hv)
  | tuple items ih =>
      obtain ⟨ys, rfl, hxy⟩ := tuple_iff.mp h
      obtain ⟨zs, rfl, hyz⟩ := tuple_iff.mp k
      exact .tuple (Matched.forall₂_trans hxy hyz fun v hv _ _ => ih v hv)
  | map entries ih =>
      obtain ⟨fs, rfl, hef⟩ := map_iff.mp h
      obtain ⟨gs, rfl, hfg⟩ := map_iff.mp k
      refine map_iff.mpr ⟨gs, rfl, hef.trans hfg fun e he _ _ hfirst hsecond => ?_⟩
      exact ⟨(ih e he).1 hfirst.1 hsecond.1, (ih e he).2 hfirst.2 hsecond.2⟩
  | object attributes ih =>
      obtain ⟨bs, rfl, hab⟩ := object_iff.mp h
      obtain ⟨cs, rfl, hbc⟩ := object_iff.mp k
      refine object_iff.mpr ⟨cs, rfl, hab.trans hbc fun e he _ _ hfirst hsecond => ?_⟩
      exact ⟨hfirst.1.trans hsecond.1, ih e he hfirst.2 hsecond.2⟩

end Same

end Stencil
