import Stencil.Proofs.Value.WellFormed

/-! # Equality of well-formed values

Equality of items and strict equality are equivalences.

* `Value.equal_iff_same`: two well-formed values are found equal if and only if they are the same.
* `Value.equal_comm`: the sides of an equality can be exchanged.
* `Value.strictEqual_iff_same`: strict equality is the same relation, but for truth values and numbers.
* `Value.strictEqual_equivalence`: it is an equivalence. -/

namespace Stencil.Value

variable {a b c : Value}

/-! ## Collections, part by part -/

/-- Equality of rows is equality item by item. -/
theorem itemsEqual_iff {xs ys : List Value} :
    itemsEqual xs ys = true ↔ List.Forall₂ (fun x y => equal x y = true) xs ys := by
  induction xs generalizing ys with
  | nil => cases ys <;> simp [itemsEqual]
  | cons x xs ih => cases ys <;> simp [itemsEqual, ih]

/-- Every entry has an equal one among others. -/
theorem entriesWithin_iff {es fs : List (Value × Value)} :
    entriesWithin es fs = true ↔ ∀ e ∈ es, ∃ f ∈ fs, equal e.1 f.1 = true ∧ equal e.2 f.2 = true := by
  induction es with
  | nil => simp [entriesWithin]
  | cons e es ih => simp [entriesWithin, ih]

/-- Every attribute has an equal one of its name among others. -/
theorem attributesWithin_iff {as bs : List (String × Value)} :
    attributesWithin as bs = true ↔ ∀ e ∈ as, ∃ f ∈ bs, e.1 = f.1 ∧ equal e.2 f.2 = true := by
  induction as with
  | nil => simp [attributesWithin]
  | cons e as ih => simp [attributesWithin, ih]

/-- An atom is compared as such. -/
theorem equal_of_isAtom (ha : a.isAtom = true) : equal a b = atomEqual a b := by
  cases a with
  | list | tuple | map | object => cases ha
  | _ => rfl

/-! ## What is found equal -/

/-- **What is the same is found equal**, whether it is well formed or not. -/
theorem equal_of_same (h : Same a b) : equal a b = true := by
  induction a using Value.induction generalizing b with
  | atom v hv =>
      rw [equal_of_isAtom hv]
      exact SameAtom.atomEqual_iff.mpr ((Same.atom_iff hv).mp h)
  | list items ih =>
      obtain ⟨ys, rfl, hitems⟩ := Same.list_iff.mp h
      exact itemsEqual_iff.mpr (Matched.forall₂_of_forall₂ hitems fun v hv _ => ih v hv)
  | tuple items ih =>
      obtain ⟨ys, rfl, hitems⟩ := Same.tuple_iff.mp h
      exact itemsEqual_iff.mpr (Matched.forall₂_of_forall₂ hitems fun v hv _ => ih v hv)
  | map entries ih =>
      obtain ⟨fs, rfl, hentries⟩ := Same.map_iff.mp h
      have hwithin : entriesWithin entries fs = true := by
        refine entriesWithin_iff.mpr fun e he => ?_
        obtain ⟨f, hf, hsame⟩ := hentries.exists_of_mem he
        exact ⟨f, hf, (ih e he).1 hsame.1, (ih e he).2 hsame.2⟩
      simp [equal, hentries.length_eq, hwithin]
  | object attributes ih =>
      obtain ⟨bs, rfl, hattributes⟩ := Same.object_iff.mp h
      have hwithin : attributesWithin attributes bs = true := by
        refine attributesWithin_iff.mpr fun e he => ?_
        obtain ⟨f, hf, hsame⟩ := hattributes.exists_of_mem he
        exact ⟨f, hf, hsame.1, ih e he hsame.2⟩
      simp [equal, hattributes.length_eq, hwithin]

/-- Two entries with different keys are not the same as one entry. -/
theorem apart_of_unequal {d e f : Value × Value} (h : equal e.1 d.1 = false) (hd : SameEntry d f) :
    ¬ SameEntry e f := by
  intro he
  have hsame : Same e.1 d.1 := he.1.trans hd.1.symm
  rw [equal_of_same hsame] at h
  cases h

/-- **What is found equal is the same**, when the left side is well formed: its keys are apart, so that no
two of its entries are found in one entry of the right side. -/
theorem same_of_equal (ha : a.WellFormed) (h : equal a b = true) : Same a b := by
  induction a using Value.induction generalizing b with
  | atom v hv =>
      rw [equal_of_isAtom hv] at h
      exact .atom (SameAtom.atomEqual_iff.mp h)
  | list items ih =>
      cases ha with
      | atom ha => cases ha
      | list parts =>
          cases b with
          | list ys =>
              exact .list (Matched.forall₂_of_forall₂ (itemsEqual_iff.mp h) fun v hv _ =>
                ih v hv (parts v hv))
          | _ => cases h
  | tuple items ih =>
      cases ha with
      | atom ha => cases ha
      | tuple parts =>
          cases b with
          | tuple ys =>
              exact .tuple (Matched.forall₂_of_forall₂ (itemsEqual_iff.mp h) fun v hv _ =>
                ih v hv (parts v hv))
          | _ => cases h
  | map entries ih =>
      cases ha with
      | atom ha => cases ha
      | map keys values apart =>
          cases b with
          | map fs =>
              simp only [equal, Bool.and_eq_true, beq_iff_eq] at h
              obtain ⟨hlength, hwithin⟩ := h
              refine Same.map_iff.mpr ⟨fs, rfl, .of_exists hlength (fun e he => ?_) ?_⟩
              · obtain ⟨f, hf, hkey, hvalue⟩ := entriesWithin_iff.mp hwithin e he
                exact ⟨f, hf, (ih e he).1 (keys e he) hkey, (ih e he).2 (values e he) hvalue⟩
              · exact apart.imp fun hunequal _ => apart_of_unequal hunequal
          | _ => cases h
  | object attributes ih =>
      cases ha with
      | atom ha => cases ha
      | object values apart =>
          cases b with
          | object bs =>
              simp only [equal, Bool.and_eq_true, beq_iff_eq] at h
              obtain ⟨hlength, hwithin⟩ := h
              refine Same.object_iff.mpr ⟨bs, rfl, .of_exists hlength (fun e he => ?_) ?_⟩
              · obtain ⟨f, hf, hname, hvalue⟩ := attributesWithin_iff.mp hwithin e he
                exact ⟨f, hf, hname, ih e he (values e he) hvalue⟩
              · exact apart.imp fun hne _ hd he => hne (he.1.trans hd.1.symm)
          | _ => cases h

/-- **Equality of items** decides whether well-formed values are the same. -/
theorem equal_iff_same (ha : a.WellFormed) : equal a b = true ↔ Same a b :=
  ⟨same_of_equal ha, equal_of_same⟩

/-- **Exchanging** the sides of an equality of items. -/
theorem equal_comm (ha : a.WellFormed) (hb : b.WellFormed) : equal a b = equal b a := by
  rw [Bool.eq_iff_iff, equal_iff_same ha, equal_iff_same hb]
  exact ⟨Same.symm, Same.symm⟩

/-! ## Strict equality -/

/-- Whether a value is a truth value. -/
def isTruthValue : Value → Bool
  | .bool _ => true
  | _ => false

/-- Strict equality is equality of items between truth values and between all other values. -/
theorem strictEqual_eq (a b : Value) :
    a.strictEqual b = (a.equal b && a.isTruthValue == b.isTruthValue) := by
  unfold strictEqual
  split
  · -- zero and one stand for different points, so that numbers tell truth values apart
    rename_i p q
    cases p <;> cases q <;> decide
  all_goals simp [isTruthValue]

/-- **Strict equality** of well-formed values: they are the same, and both or neither are truth values. -/
theorem strictEqual_iff_same (ha : a.WellFormed) :
    strictEqual a b = true ↔ Same a b ∧ a.isTruthValue = b.isTruthValue := by
  rw [strictEqual_eq, Bool.and_eq_true, equal_iff_same ha, beq_iff_eq]

/-- **Exchanging** the sides of a strict equality. -/
theorem strictEqual_comm (ha : a.WellFormed) (hb : b.WellFormed) : a.strictEqual b = b.strictEqual a := by
  rw [strictEqual_eq, strictEqual_eq, equal_comm ha hb, Bool.beq_comm]

/-- **Strict equality is an equivalence** of well-formed values. It finds two of them equal if they are the
same and both or neither are truth values. -/
theorem strictEqual_equivalence (ha : a.WellFormed) (hb : b.WellFormed) :
    a.strictEqual a = true ∧ a.strictEqual b = b.strictEqual a ∧
      (a.strictEqual b = true → b.strictEqual c = true → a.strictEqual c = true) ∧
      (a.strictEqual b = true ↔ Same a b ∧ a.isTruthValue = b.isTruthValue) := by
  refine ⟨?_, strictEqual_comm ha hb, fun hab hbc => ?_, strictEqual_iff_same ha⟩
  · exact (strictEqual_iff_same ha).mpr ⟨.refl a, rfl⟩
  · obtain ⟨hsame, hkind⟩ := (strictEqual_iff_same ha).mp hab
    obtain ⟨hsame', hkind'⟩ := (strictEqual_iff_same hb).mp hbc
    exact (strictEqual_iff_same ha).mpr ⟨hsame.trans hsame', hkind.trans hkind'⟩

/-- A mapping of truth values and a NaN, with a record. -/
def flagged : Value := ofEntries
  [(.text "n", .list [.bool true, .float (.nan 7)]), (.tuple [.bool false], .range 0 4 2),
    (.null, ofAttributes [("x", .bool true), ("y", .bytes [1])])]

/-- The same mapping in another order, with integers and another range. -/
def counted : Value := ofEntries
  [(.null, ofAttributes [("y", .bytes [1]), ("x", .int 1)]), (.tuple [.int 0], .range 0 3 2),
    (.text "n", .list [.int 1, .float (.nan 7)])]

/-- The same mapping with doubles, one of them the negative zero. -/
def measured : Value := ofEntries
  [(.tuple [.float (.zero true)], .range 0 4 2),
    (.text "n", .list [.float (.finite false (Nat.pow 2 52) (-52)), .float (.nan 7)]),
    (.null, ofAttributes [("x", .float (.finite false (Nat.pow 2 52) (-52))), ("y", .bytes [1])])]

theorem strictEqual_equivalence_nested :
    flagged.WellFormed ∧ counted.WellFormed ∧ flagged.strictEqual flagged = true ∧
      flagged.strictEqual counted = counted.strictEqual flagged ∧
      flagged.strictEqual counted = true ∧ counted.strictEqual measured = true ∧
      flagged.strictEqual measured = true ∧ Same flagged counted ∧
      (bool true).strictEqual (.int 1) = false := by
  have hrecord : ∀ as : List (String × Value), (as.map Prod.snd).all isAtom = true →
      (ofAttributes as).WellFormed :=
    fun as h => .ofAttributes fun a ha => .atoms h a.2 (List.mem_map_of_mem ha)
  have hflagged : flagged.WellFormed := .ofEntries <| by
    simp only [List.forall_mem_cons]
    exact ⟨⟨.atom rfl, .list (.atoms rfl)⟩, ⟨.tuple (.atoms rfl), .atom rfl⟩, ⟨.atom rfl, hrecord _ rfl⟩,
      nofun⟩
  have hcounted : counted.WellFormed := .ofEntries <| by
    simp only [List.forall_mem_cons]
    exact ⟨⟨.atom rfl, hrecord _ rfl⟩, ⟨.tuple (.atoms rfl), .atom rfl⟩, ⟨.atom rfl, .list (.atoms rfl)⟩,
      nofun⟩
  have hfirst : flagged.strictEqual counted = true := by decide +kernel
  have hsecond : counted.strictEqual measured = true := by decide +kernel
  obtain ⟨hrefl, hsymm, htrans, hsame⟩ := strictEqual_equivalence (c := measured) hflagged hcounted
  exact ⟨hflagged, hcounted, hrefl, hsymm, hfirst, hsecond, htrans hfirst hsecond, (hsame.mp hfirst).1,
    by decide⟩

end Stencil.Value
