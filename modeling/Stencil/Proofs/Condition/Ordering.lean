import Stencil.Proofs.Value.Bounded
import Stencil.Proofs.Value.Order

/-! # The operators of conditions together

What one operator says of two values decides what others say of them.

* `Operator.apply_mirror`: exchanging the sides of a comparison mirrors its operator.
* `Value.Ordered`: which pairs of values always have an order.
* `Value.ordering_coherent`: the four ordering operators agree with each other. -/

namespace Stencil

namespace Operator

/-- The operator that says the same with the sides exchanged. -/
def mirror : Operator → Operator
  | .less => .greater
  | .greater => .less
  | .atMost => .atLeast
  | .atLeast => .atMost
  | op => op

/-- A mirrored operator holds at the standings that are the other way round. -/
theorem admits_mirror (op : Operator) (s : Standing) : op.mirror.admits s.swap = op.admits s := by
  cases op <;> cases s <;> rfl

end Operator

namespace Value

variable {l r : Value}

/-! ## Reading texts as numbers -/

/-- A text is read as an atom. -/
theorem isAtom_of_numeric {s : String} {v : Value} (h : numeric s = .ok v) : v.isAtom = true := by
  obtain ⟨n, -, hn⟩ := bind_eq_ok_iff.mp h
  cases n with
  | none => cases hn; rfl
  | some n => cases hn; cases n <;> rfl

theorem exists_of_isText {v : Value} (h : v.isText = true) : ∃ s, v = .text s := by
  cases v with
  | text s => exact ⟨s, rfl⟩
  | _ => cases h

/-- The sides when the right one is a text. -/
theorem coerce_text (l : Value) (s : String) :
    l.coerce (.text s) = if l.isNumber then (fun v => (l, v)) <$> numeric s else .ok (l, .text s) := rfl

/-- The sides when only the left one is a text. -/
theorem text_coerce (s : String) (hr : r.isText = false) :
    coerce (.text s) r = if r.isNumber then (fun v => (v, r)) <$> numeric s else .ok (.text s, r) := by
  cases r with
  | text => cases hr
  | _ => rfl

/-- The sides when neither is a text. -/
theorem coerce_of_isText_eq_false (hl : l.isText = false) (hr : r.isText = false) :
    l.coerce r = .ok (l, r) := by
  unfold coerce
  split
  · cases hr
  · cases hl
  · rfl

/-- **Exchanging** the sides before they are brought to numbers, and after. -/
theorem coerce_swap (l r : Value) : r.coerce l = Prod.swap <$> l.coerce r := by
  cases hl : l.isText <;> cases hr : r.isText
  · rw [coerce_of_isText_eq_false hl hr, coerce_of_isText_eq_false hr hl]
    rfl
  · obtain ⟨s, rfl⟩ := exists_of_isText hr
    rw [coerce_text, text_coerce s hl]
    split
    · cases numeric s <;> rfl
    · rfl
  · obtain ⟨s, rfl⟩ := exists_of_isText hl
    rw [coerce_text, text_coerce s hr]
    split
    · cases numeric s <;> rfl
    · rfl
  · obtain ⟨s, rfl⟩ := exists_of_isText hl
    obtain ⟨t, rfl⟩ := exists_of_isText hr
    rfl

/-- What the sides are brought to is well formed. -/
theorem wellFormed_of_coerce (hl : l.WellFormed) (hr : r.WellFormed) {p : Value × Value}
    (h : l.coerce r = .ok p) : p.1.WellFormed ∧ p.2.WellFormed := by
  unfold coerce at h
  split at h
  · split at h
    · obtain ⟨v, hv, rfl⟩ := map_eq_ok_iff.mp h
      exact ⟨hl, .atom (isAtom_of_numeric hv)⟩
    · cases h
      exact ⟨hl, hr⟩
  · split at h
    · obtain ⟨v, hv, rfl⟩ := map_eq_ok_iff.mp h
      exact ⟨.atom (isAtom_of_numeric hv), hr⟩
    · cases h
      exact ⟨hl, hr⟩
  · cases h
    exact ⟨hl, hr⟩

end Value

/-! ## Exchanging the sides -/

namespace Operator

variable {op : Operator} {l r : Value}

/-- **What an ordering operator says** of two values is what it admits of their standing, once they are
brought to numbers. Between values without an order none of them holds. -/
theorem holds_order (hop : op ≠ .different) (l r : Value) :
    Verdict.holds <$> op.order l r = (fun p => op.admits (p.1.compare p.2)) <$> l.coerce r := by
  unfold order
  cases l.coerce r with
  | error e => rfl
  | ok p =>
      rw [ok_bind]
      dsimp only
      split
      · rename_i h
        show Except.ok false = Except.ok (op.admits (p.1.compare p.2))
        rw [h]
        cases op with
        | different => exact (hop rfl).elim
        | _ => rfl
      · rfl

/-- Exchanging the sides of an ordering operator mirrors it. -/
theorem order_mirror (hop : op ≠ .different) (hl : l.WellFormed) (hr : r.WellFormed) :
    Verdict.holds <$> op.mirror.order r l = Verdict.holds <$> op.order l r := by
  have hmirror : op.mirror ≠ .different := by
    cases op with
    | different => exact (hop rfl).elim
    | _ => exact nofun
  rw [holds_order hop, holds_order hmirror, Value.coerce_swap]
  cases hp : l.coerce r with
  | error e => rfl
  | ok p =>
      obtain ⟨hfst, hsnd⟩ := Value.wellFormed_of_coerce hl hr hp
      show Except.ok (op.mirror.admits (p.2.compare p.1)) = Except.ok (op.admits (p.1.compare p.2))
      rw [← Value.compare_swap hfst hsnd, admits_mirror]

/-- **Exchanging the sides** of a comparison mirrors its operator. -/
theorem apply_mirror (op : Operator) (hl : l.WellFormed) (hr : r.WellFormed) :
    Verdict.holds <$> op.mirror.apply r l = Verdict.holds <$> op.apply l r := by
  cases op with
  | same => exact congrArg Except.ok (Value.strictEqual_comm hr hl)
  | different => exact congrArg (fun b => Except.ok (!b)) (Value.strictEqual_comm hr hl)
  | less | greater | atMost | atLeast => exact order_mirror nofun hl hr

end Operator

/-! ## Values that always have an order -/

namespace Value

variable {l r : Value}

/-- Whether two values **always have an order**: both are texts, both are numbers, or one is a number and
the other a text that looks like one, and neither is a NaN. -/
inductive Ordered : Value → Value → Prop
  | texts (s t : String) : Ordered (.text s) (.text t)
  | numbers {m n : Number} (left : m.position? ≠ none) (right : n.position? ≠ none) :
      Ordered (.ofNumber m) (.ofNumber n)
  | numberText {m : Number} {s : String} (left : m.position? ≠ none)
      (right : (Numeral.read? (Text.trim s.toList)).isSome) : Ordered (.ofNumber m) (.text s)
  | textNumber {s : String} {n : Number} (left : (Numeral.read? (Text.trim s.toList)).isSome)
      (right : n.position? ≠ none) : Ordered (.text s) (.ofNumber n)

/-- A text that looks like a number is read as one, and as no NaN. -/
theorem exists_of_numeric {s : String} {v : Value}
    (hlooks : (Numeral.read? (Text.trim s.toList)).isSome) (h : numeric s = .ok v) :
    ∃ n : Number, v = .ofNumber n ∧ n.position? ≠ none := by
  obtain ⟨found, hfound, hv⟩ := bind_eq_ok_iff.mp h
  cases found with
  | some n =>
      cases hv
      exact ⟨n, rfl, Number.position?_of_ofText? hfound⟩
  | none =>
      -- nothing is found only in a text that does not look like a number
      obtain ⟨numeral, hnumeral⟩ := Option.isSome_iff_exists.mp hlooks
      rw [Number.ofText?, hnumeral] at hfound
      obtain ⟨_, -, hnone⟩ := map_eq_ok_iff.mp hfound
      cases hnone

@[simp] theorem isNumber_ofNumber (n : Number) : (ofNumber n).isNumber = true := by
  cases n <;> rfl

@[simp] theorem isText_ofNumber (n : Number) : (ofNumber n).isText = false := by
  cases n <;> rfl

/-- Numbers stand to each other as values as they do as numbers. -/
@[simp] theorem compare_ofNumber (m n : Number) : (ofNumber m).compare (.ofNumber n) = m.compare n := by
  cases m <;> cases n <;> rfl

/-- **Two values that have an order** stand before, at or after one another, once they are brought to
numbers. -/
theorem Ordered.decided (h : Ordered l r) {p : Value × Value} (hp : l.coerce r = .ok p) :
    (p.1.compare p.2).Decided := by
  cases h with
  | texts s t =>
      cases hp
      exact Standing.linear_decided s t
  | numbers hm hn =>
      rw [coerce_of_isText_eq_false (isText_ofNumber _) (isText_ofNumber _)] at hp
      cases hp
      rw [compare_ofNumber]
      exact Number.compare_decided hm hn
  | numberText hm hlooks =>
      rw [coerce_text, if_pos (isNumber_ofNumber _)] at hp
      obtain ⟨v, hv, rfl⟩ := map_eq_ok_iff.mp hp
      obtain ⟨n, rfl, hn⟩ := exists_of_numeric hlooks hv
      rw [compare_ofNumber]
      exact Number.compare_decided hm hn
  | textNumber hlooks hn =>
      rw [text_coerce _ (isText_ofNumber _), if_pos (isNumber_ofNumber _)] at hp
      obtain ⟨v, hv, rfl⟩ := map_eq_ok_iff.mp hp
      obtain ⟨m, rfl, hm⟩ := exists_of_numeric hlooks hv
      rw [compare_ofNumber]
      exact Number.compare_decided hm hn

/-! ## The ordering operators -/

/-- **What a comparison says**, by the spelling of its operator. -/
def compares (l : Value) (spelling : String) (r : Value) : Except ComparisonError Bool :=
  Verdict.holds <$> Operator.applyNamed spelling l r

/-- Every canonical spelling is that of its operator. -/
theorem compares_text (op : Operator) (l r : Value) :
    l.compares op.text r = (Verdict.holds <$> op.apply l r).mapError .limit := by
  unfold compares Operator.applyNamed
  rw [Operator.ofText?_text]
  dsimp only
  cases op.apply l r <;> rfl

/-- **Exchanging the sides** of a comparison mirrors its operator. -/
theorem compares_mirror (op : Operator) (hl : l.WellFormed) (hr : r.WellFormed) :
    r.compares op.mirror.text l = l.compares op.text r := by
  rw [compares_text, compares_text, Operator.apply_mirror op hl hr]

/-- What an ordering operator says of two values that are brought to numbers. -/
theorem compares_of_coerce (op : Operator) (hop : op ≠ .same ∧ op ≠ .different) {p : Value × Value}
    (hp : l.coerce r = .ok p) : l.compares op.text r = .ok (op.admits (p.1.compare p.2)) := by
  have happly : op.apply l r = op.order l r := by
    cases op with
    | same => exact (hop.1 rfl).elim
    | different => exact (hop.2 rfl).elim
    | _ => rfl
  rw [compares_text, happly, Operator.holds_order hop.2, hp]
  rfl

/-- **The ordering operators are coherent.** Each of them answers on all well-formed values within the digit
limit. A comparison says the same from both sides; what comes before another value comes before it or is at
the same place; nothing comes before and also at or after another value; and one of these two holds
between values that always have an order. -/
theorem ordering_coherent (hl : l.WellFormed) (hr : r.WellFormed) (hlfits : l.NumeralFits)
    (hrfits : r.NumeralFits) :
    ∃ before atMost atLeast : Bool,
      (l.compares "<" r = .ok before ∧ r.compares ">" l = .ok before) ∧
      (l.compares "<=" r = .ok atMost ∧ r.compares ">=" l = .ok atMost) ∧
      l.compares ">=" r = .ok atLeast ∧
      (before = true → atMost = true) ∧ ¬ (before = true ∧ atLeast = true) ∧
      (Ordered l r → atLeast = !before) := by
  obtain ⟨p, hp⟩ := hlfits.exists_coerce hrfits
  have hless : l.compares "<" r = .ok (Operator.less.admits (p.1.compare p.2)) :=
    compares_of_coerce .less (by decide) hp
  have hatMost : l.compares "<=" r = .ok (Operator.atMost.admits (p.1.compare p.2)) :=
    compares_of_coerce .atMost (by decide) hp
  have hatLeast : l.compares ">=" r = .ok (Operator.atLeast.admits (p.1.compare p.2)) :=
    compares_of_coerce .atLeast (by decide) hp
  refine ⟨_, _, _, ⟨hless, (compares_mirror .less hl hr).trans hless⟩,
    ⟨hatMost, (compares_mirror .atMost hl hr).trans hatMost⟩, hatLeast, ?_, ?_, fun hordered => ?_⟩
  · cases p.1.compare p.2 <;> decide
  · cases p.1.compare p.2 <;> decide
  · rcases hordered.decided hp with h | h | h <;> rw [h] <;> rfl

/-- Lists that differ first at a NaN have no order, although they may be put side by side. -/
example : (list [.int 1, .float (.nan 0)]).compares "<" (.list [.bool true, .int 2]) = .ok false ∧
    (list [.int 1, .float (.nan 0)]).compares ">=" (.list [.bool true, .int 2]) = .ok false := by
  decide +kernel

/-- An integer and a text with blanks around a numeral. -/
theorem ordering_coherent_padded :
    (int (-3)).NumeralFits ∧ (text " -12 ").NumeralFits ∧ Ordered (.int (-3)) (.text " -12 ") ∧
      (int (-3)).compares "<" (.text " -12 ") = .ok false ∧
      (text " -12 ").compares ">" (.int (-3)) = .ok false ∧
      (int (-3)).compares ">=" (.text " -12 ") = .ok true := by
  have hint : (int (-3)).NumeralFits := by
    intro s negative ds h
    cases h
  have hread : Numeral.read? (Text.trim " -12 ".toList) = some (.integer true [1, 2]) := by decide +kernel
  have htext : (text " -12 ").NumeralFits := by
    rintro s negative ds h hs
    cases h
    rw [hread] at hs
    cases hs
    decide
  have hordered : Ordered (.int (-3)) (.text " -12 ") :=
    .numberText (m := .int (-3)) (by decide) (by rw [hread]; rfl)
  obtain ⟨before, atMost, atLeast, ⟨hbefore, hafter⟩, -, hatLeast, -, -, hexact⟩ :=
    ordering_coherent (.atom rfl) (.atom rfl) hint htext
  have hfalse : (int (-3)).compares "<" (.text " -12 ") = .ok false := by decide +kernel
  obtain rfl : before = false := Except.ok.inj (hbefore.symm.trans hfalse)
  refine ⟨hint, htext, hordered, hbefore, hafter, ?_⟩
  rw [hatLeast, hexact hordered]
  rfl

end Value

end Stencil
