import Stencil.Proofs.Condition.Ordering
import Stencil.Proofs.Condition.Spelling
import Stencil.Proofs.Number.Integer

/-! # Numeric text

Text that looks like a number means that number, wherever it is read.

* `Operand.parse_integer`: an integer as it is written is read as an operand with its value.
* `Value.compares_eq_relates`: beside a number a text is compared as the number it means.
* `Value.integers_in_text` puts reading, writing and comparing together. -/

namespace Stencil

/-! ## Integers as operands -/

/-- An integer begins with a sign or a digit. -/
theorem IntegerText.head_text (w : IntegerText) :
    ∀ c ∈ w.text.head?, c = '+' ∨ c = '-' ∨ Text.isDecimalDigit c = true := by
  obtain ⟨sign, digits, hne, hdecimal⟩ := w
  intro c hc
  cases sign with
  | none => exact .inr (.inr (hdecimal c (List.mem_of_mem_head? hc)))
  | some minus =>
      cases minus with
      | false => exact .inl (Option.some.inj hc).symm
      | true => exact .inr (.inl (Option.some.inj hc).symm)

/-- What begins like an integer is no keyword and no text in quotes. -/
theorem IntegerText.head_not_mem (w : IntegerText) {special : List Char}
    (h : (special.all fun c => c != '+' && c != '-' && !Text.isDecimalDigit c) = true) :
    ∀ c ∈ w.text.head?, c ∉ special := by
  intro c hc hmem
  have hc' := List.all_eq_true.mp h c hmem
  simp only [Bool.and_eq_true, bne_iff_ne, Bool.not_eq_true'] at hc'
  obtain ⟨⟨hplus, hminus⟩, hdigit⟩ := hc'
  rcases w.head_text c hc with rfl | rfl | hc
  · exact hplus rfl
  · exact hminus rfl
  · rw [hdigit] at hc
    cases hc

namespace Operand

/-- **An integer between blanks is read as its value**, and neither as a keyword nor as a path. -/
theorem parse_integer {token : String} {w : IntegerText} (hw : Text.trim token.toList = w.text)
    (hlength : w.digits.length ≤ Limit.digits) : parse token = .ok (.literal (.int w.value)) := by
  have hkeyword : keyword? w.text = none := by
    cases hk : keyword? w.text with
    | none => rfl
    | some v =>
        obtain ⟨c, hc, hmem⟩ := head_of_keyword? hk
        exact absurd hmem (w.head_not_mem (by rfl) c hc)
  have hquoted : quotedText? w.text = none := by
    have hhead : ∀ c ∈ w.text.head?, c ∉ quotes := w.head_not_mem (by rfl)
    cases htext : w.text with
    | nil => rfl
    | cons c rest =>
        rw [htext] at hhead
        simp [quotedText?, hhead c rfl]
  have hnumber : Number.ofText? (String.ofList w.text) = .ok (some (.int w.value)) := by
    refine Number.ofText?_eq_int_iff.mpr ⟨w, ?_, hlength, rfl⟩
    rw [String.toList_ofList, ← hw, Text.trim_trim]
  unfold parse
  dsimp only
  rw [hw, hkeyword, hquoted, hnumber]
  rfl

end Operand

/-! ## Comparing with text -/

/-- What an operator **says of two integers**. -/
def Operator.relates : Operator → Int → Int → Bool
  | .less, a, b => decide (a < b)
  | .greater, a, b => decide (b < a)
  | .atMost, a, b => decide (a ≤ b)
  | .atLeast, a, b => decide (b ≤ a)
  | .same, a, b => decide (a = b)
  | .different, a, b => decide (a ≠ b)

/-- Points that are integers stand as the integers do. -/
theorem Operator.admits_compare (op : Operator) (a b : Int) :
    op.admits (Extended.compare (.rational a) (.rational b)) = op.relates a b := by
  have hequal : ((Extended.rational a == Extended.rational b) = true) ↔ a = b := by
    simp
  have hless : (Extended.rational a).lt (.rational b) = true ↔ a < b := by
    simp [Extended.lt]
  unfold Extended.compare
  rcases lt_trichotomy a b with h | h | h
  · rw [if_neg (mt hequal.mp h.ne), if_pos (hless.mpr h)]
    cases op <;> simp [admits, relates, h, h.le, h.not_gt, h.not_ge, h.ne]
  · subst h
    rw [if_pos (hequal.mpr rfl)]
    cases op <;> simp [admits, relates]
  · rw [if_neg (mt hequal.mp h.ne'), if_neg (mt hless.mp h.not_gt)]
    cases op <;> simp [admits, relates, h, h.le, h.not_gt, h.not_ge, h.ne']

namespace Value

/-- The operators that ask for an order. -/
def orderings : List Operator := [.less, .greater, .atMost, .atLeast]

/-- Numbers that equal integers are compared as the integers are. -/
theorem admits_compare_of_equal (op : Operator) {m n : Number} {a b : Int}
    (hm : m.equal (.int a) = true) (hn : n.equal (.int b) = true) :
    op.admits ((ofNumber m).compare (.ofNumber n)) = op.relates a b := by
  have hpm : m.position? = some (.rational a) := (Number.equal_iff.mp hm).1
  have hpn : n.position? = some (.rational b) := (Number.equal_iff.mp hn).1
  rw [compare_ofNumber, Number.compare, hpm, hpn]
  exact op.admits_compare a b

/-- **A comparison whose sides are brought to numbers** that equal integers says what the integers say. -/
theorem compares_eq_relates {op : Operator} (hop : op ∈ orderings) {l r : Value} {m n : Number} {a b : Int}
    (hcoerce : l.coerce r = .ok (.ofNumber m, .ofNumber n)) (hm : m.equal (.int a) = true)
    (hn : n.equal (.int b) = true) : l.compares op.text r = .ok (op.relates a b) := by
  have hne : op ≠ .same ∧ op ≠ .different := by
    constructor
    · rintro rfl
      exact absurd hop (by decide)
    · rintro rfl
      exact absurd hop (by decide)
  rw [compares_of_coerce op hne hcoerce]
  exact congrArg Except.ok (admits_compare_of_equal op hm hn)

/-- A text that means a number is read as it. -/
theorem numeric_of_ofText? {s : String} {n : Number} (h : Number.ofText? s = .ok (some n)) :
    numeric s = .ok (.ofNumber n) := by
  rw [numeric, h]
  rfl

end Value

/-! ## Reading, writing and comparing -/

/-- A text with few digits has no long run of them. -/
theorem digitRunsFit_of_countP_le {s : List Char} (h : s.countP Text.isDecimalDigit ≤ Limit.digits) :
    DigitRunsFit s := by
  intro run hrun hdigits
  calc run.length = run.countP Text.isDecimalDigit := (List.countP_eq_length.mpr hdigits).symm
    _ ≤ s.countP Text.isDecimalDigit := hrun.sublist.countP_le
    _ ≤ Limit.digits := h

namespace Value

/-- The decimal text of an integer has no blanks around it. -/
theorem trim_text_ofInt (n : Int) : Text.trim (Decimal.text n).toList = (IntegerText.ofInt n).text := by
  have hbare : ∀ c ∈ (IntegerText.ofInt n).text, Text.isBlank c = false := by
    intro c hc
    rcases List.mem_append.mp hc with hsign | hdigit
    · have hc : c = '+' ∨ c = '-' := by
        revert hsign
        cases (IntegerText.ofInt n).sign with
        | none => simp [IntegerText.signText]
        | some minus => cases minus <;> simp +contextual [IntegerText.signText]
      rcases hc with rfl | rfl <;> rfl
    · exact Path.isBlank_of_isDigit (IntegerText.isDigit_of_mem_ofNat hdigit)
  rw [Decimal.text, String.toList_ofList, ← IntegerText.text_ofInt]
  exact Text.trim_of_bare (.of_forall hbare)

/-- **Text that looks like a number means that number.**

* A text of few digits is read as an integer iff, between blanks, it is a sign or none and digits of any
  scripts, and then as the positional value of the digits with that sign.
* The text that is shown for an integer is its decimal text, which is read back, also as an operand.
* An ordering says of an integer and a text that means an integer what it says of the two integers,
  on whatever side the text stands. Strictly equal they are not. -/
theorem integers_in_text :
    (∀ t : String, t.toList.countP Text.isDecimalDigit ≤ Limit.digits →
      ∃ r, Number.ofText? t = .ok r ∧ ∀ n, r = some (.int n) ↔
        ∃ w : IntegerText, Text.trim t.toList = w.text ∧ w.value = n) ∧
    (∀ n : Int, n.natAbs < 10 ^ Limit.digits →
      (int n).scalar? = .ok (some (Decimal.text n)) ∧
      Number.ofText? (Decimal.text n) = .ok (some (.int n)) ∧
      Operand.parse (Decimal.text n) = .ok (.literal (.int n))) ∧
    (∀ (a b : Int) (s t : String) (m n : Number),
      Number.ofText? s = .ok (some m) → m.equal (.int a) = true →
      Number.ofText? t = .ok (some n) → n.equal (.int b) = true →
      (∀ op ∈ orderings,
        (int a).compares op.text (.text t) = .ok (op.relates a b) ∧
        (text s).compares op.text (.int b) = .ok (op.relates a b) ∧
        (int a).compares op.text (.int b) = .ok (op.relates a b)) ∧
      (int a).compares "===" (.text t) = .ok false) := by
  refine ⟨fun t ht => ?_, fun n hn => ?_, fun a b s t m n hs hm ht hn => ⟨fun op hop => ?_, ?_⟩⟩
  · have hfit := digitRunsFit_of_countP_le ht
    cases hread : Number.ofText? t with
    | error l => exact absurd hread (Number.ofText?_ne_error hfit l)
    | ok r =>
        refine ⟨r, rfl, fun n => ?_⟩
        rw [← Except.ok.injEq (ε := Limit), ← hread, Number.ofText?_eq_int_iff]
        constructor
        · rintro ⟨w, hw, -, hvalue⟩
          exact ⟨w, hw, hvalue⟩
        · rintro ⟨w, hw, hvalue⟩
          -- the digits of the integer are a part of the text
          have hpart : w.digits <:+: t.toList := by
            have hsuffix : w.digits <:+ w.text := List.suffix_append _ _
            rw [← hw] at hsuffix
            exact hsuffix.isInfix.trans (trim_isInfix _)
          exact ⟨w, hw, hfit _ hpart w.decimal, hvalue⟩
  · have hlength : (IntegerText.ofInt n).digits.length ≤ Limit.digits := IntegerText.length_ofNat_le hn
    have htrim := trim_text_ofInt n
    refine ⟨?_, ?_, ?_⟩
    · rw [scalar?, Decimal.text?, Nat.pow_eq, if_pos hn]
      rfl
    · exact Number.ofText?_eq_int_iff.mpr ⟨_, htrim, hlength, IntegerText.value_ofInt n⟩
    · rw [Operand.parse_integer htrim hlength, IntegerText.value_ofInt]
  · have hself (k : Int) : (Number.int k).equal (.int k) = true := Number.equal_iff.mpr (.refl _)
    refine ⟨?_, ?_, ?_⟩
    · refine compares_eq_relates hop (m := .int a) (n := n) ?_ (hself a) hn
      rw [coerce_text, numeric_of_ofText? ht]
      rfl
    · refine compares_eq_relates hop (m := m) (n := .int b) ?_ hm (hself b)
      rw [text_coerce s rfl, numeric_of_ofText? hs]
      rfl
    · exact compares_eq_relates hop (m := .int a) (n := .int b) rfl (hself a) (hself b)
  · rfl

/-- Thirty-four, with digits of two scripts, a sign and blanks. -/
def thirtyFour : String := "\n+٣4 "

theorem integers_in_text_mixed :
    (∃ r, Number.ofText? thirtyFour = .ok r ∧ ∀ n, r = some (.int n) ↔
      ∃ w : IntegerText, Text.trim thirtyFour.toList = w.text ∧ w.value = n) ∧
    ((int (-12)).scalar? = .ok (some (Decimal.text (-12))) ∧
      Number.ofText? (Decimal.text (-12)) = .ok (some (.int (-12))) ∧
      Operand.parse (Decimal.text (-12)) = .ok (.literal (.int (-12)))) ∧
    Number.ofText? thirtyFour = .ok (some (.int 34)) ∧
    Number.ofText? "1e2" = .ok (some (.float (.finite false 7036874417766400 (-46)))) ∧
    (int 34).compares "<" (.text "1e2") = .ok true ∧ (text thirtyFour).compares "<" (.int 100) = .ok true ∧
    (int 34).compares "===" (.text "1e2") = .ok false := by
  obtain ⟨hread, hwrite, hcompare⟩ := integers_in_text
  have hmixed : Number.ofText? thirtyFour = .ok (some (.int 34)) := by decide +kernel
  have hhundred : Number.ofText? "1e2" = .ok (some (.float (.finite false 7036874417766400 (-46)))) := by
    decide +kernel
  obtain ⟨horder, hstrict⟩ :=
    hcompare 34 100 thirtyFour "1e2" _ _ hmixed (by decide +kernel) hhundred (by decide +kernel)
  obtain ⟨hright, hleft, -⟩ := horder .less (by decide)
  have hfew : (-12 : Int).natAbs < 10 ^ Limit.digits := by
    rw [← Nat.pow_eq]
    decide +kernel
  exact ⟨hread thirtyFour (by decide +kernel), hwrite (-12) hfew, hmixed, hhundred, hright, hleft, hstrict⟩

end Value

end Stencil
