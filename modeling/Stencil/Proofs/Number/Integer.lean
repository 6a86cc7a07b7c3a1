import Mathlib.Data.List.TakeWhile
import Mathlib.Data.Nat.Digits.Defs
import Stencil.Number.Numeral
import Stencil.Proofs.Result

/-! # Integers in text

Which texts are read as integers, and how integers are written.

* `IntegerText` is an integer as it is written, in digits of any scripts, with its positional value.
* `Numeral.read?_eq_integer_iff` and `Number.ofText?_eq_int_iff`: a text is read as an integer iff it is
  one between blanks, and then as its value.
* `IntegerText.text_ofInt` and `IntegerText.value_ofInt`: the decimal text of an integer is one of its
  spellings. -/

namespace Stencil

/-! ## Values of digits -/

namespace Text

/-- The number that a row of digit values writes is their sum by places, the last digit counting for
itself. -/
theorem ofDigitValues_eq_ofDigits (base : Nat) (ds : List Nat) :
    ofDigitValues base ds = Nat.ofDigits base ds.reverse := by
  rw [Nat.ofDigits_eq_foldr, List.foldr_reverse, ofDigitValues]
  simp only [Nat.cast_id, Nat.add_comm, Nat.mul_comm]

/-- Every digit has a value. -/
theorem length_filterMap_digitValue? {digits : List Char}
    (h : ∀ c ∈ digits, isDecimalDigit c = true) :
    (digits.filterMap digitValue?).length = digits.length := by
  induction digits with
  | nil => rfl
  | cons c digits ih =>
      obtain ⟨d, hd⟩ := Option.isSome_iff_exists.mp (h c List.mem_cons_self)
      rw [List.filterMap_cons_some hd, List.length_cons, List.length_cons,
        ih fun e he => h e (List.mem_cons_of_mem _ he)]

/-- ASCII digits have their usual values. -/
theorem filterMap_digitValue?_of_isDigit {digits : List Char} (h : ∀ c ∈ digits, c.isDigit = true) :
    digits.filterMap digitValue? = digits.map fun c => c.toNat - 48 := by
  rw [← List.filterMap_eq_map]
  exact List.filterMap_congr fun c hc => digitValue?_of_isDigit (h c hc)

/-- The values of ASCII digits write the number that the digits do. -/
theorem ofDigitValues_map (digits : List Char) :
    ofDigitValues 10 (digits.map fun c => c.toNat - 48) = Nat.ofDigitChars 10 digits 0 := by
  rw [ofDigitValues, List.foldl_map, Nat.ofDigitChars]
  simp only [Nat.mul_comm]
  rfl

end Text

/-! ## Integers as they are written -/

/-- An **integer as it is written**: a sign or none, and decimal digits of any scripts. -/
structure IntegerText where
  /-- The sign, if there is one; the flag tells whether it is a minus. -/
  sign : Option Bool
  /-- The digits. -/
  digits : List Char
  /-- There is a digit. -/
  ne_nil : digits ≠ []
  /-- All of them are digits. -/
  decimal : ∀ c ∈ digits, Text.isDecimalDigit c = true

namespace IntegerText

/-- The text of a sign. -/
def signText : Option Bool → List Char
  | none => []
  | some false => ['+']
  | some true => ['-']

/-- The text. -/
def text (w : IntegerText) : List Char := signText w.sign ++ w.digits

/-- Whether there is a minus. -/
def negative (w : IntegerText) : Bool := w.sign == some true

/-- The values of the digits. -/
def values (w : IntegerText) : List Nat := w.digits.filterMap Text.digitValue?

/-- The **value**: every digit counts by its place, and a minus negates the whole. -/
def value (w : IntegerText) : Int :=
  if w.negative then -(Nat.ofDigits 10 w.values.reverse : Nat)
  else (Nat.ofDigits 10 w.values.reverse : Nat)

theorem length_values (w : IntegerText) : w.values.length = w.digits.length :=
  Text.length_filterMap_digitValue? w.decimal

theorem values_ne_nil (w : IntegerText) : w.values ≠ [] := by
  intro h
  have hlength := w.length_values
  rw [h] at hlength
  exact w.ne_nil (List.eq_nil_of_length_eq_zero hlength.symm)

/-- A sign is no digit, so that the digits begin where the sign ends. -/
theorem sign_text (w : IntegerText) : Numeral.sign w.text = (w.negative, w.digits) := by
  obtain ⟨sign, digits, hne, hdecimal⟩ := w
  cases sign with
  | some minus => cases minus <;> rfl
  | none =>
      obtain ⟨c, rest, rfl⟩ := List.exists_cons_of_ne_nil hne
      have hc := hdecimal c List.mem_cons_self
      show Numeral.sign (c :: rest) = (false, c :: rest)
      unfold Numeral.sign
      split
      · rename_i heq
        cases heq
        cases hc
      · rename_i heq
        cases heq
        cases hc
      · rfl

/-- The digits are taken as a whole. -/
theorem digits_digits (w : IntegerText) : Numeral.digits w.digits = (w.values, []) := by
  rw [Numeral.digits, List.takeWhile_eq_self_iff.mpr w.decimal, List.dropWhile_eq_nil_iff.mpr w.decimal]
  rfl

end IntegerText

/-! ## Reading integers -/

/-- Every text begins with a sign, or with none. -/
theorem Numeral.exists_sign (s : List Char) : ∃ sign : Option Bool,
    s = IntegerText.signText sign ++ (Numeral.sign s).2 ∧ (Numeral.sign s).1 = (sign == some true) := by
  unfold Numeral.sign
  split
  · exact ⟨some false, rfl, rfl⟩
  · exact ⟨some true, rfl, rfl⟩
  · exact ⟨none, rfl, rfl⟩

/-- **What is read as an integer** is one as it is written: its sign and the values of its digits are
read. -/
theorem Numeral.read?_eq_integer_iff {s : List Char} {negative : Bool} {ds : List Nat} :
    Numeral.read? s = some (.integer negative ds) ↔
      ∃ w : IntegerText, s = w.text ∧ w.negative = negative ∧ w.values = ds := by
  constructor
  · intro h
    unfold Numeral.read? at h
    dsimp only at h
    split at h
    · rename_i d ds' heq
      cases h
      -- the digits leave nothing, and so are all that follows the sign
      obtain ⟨hvalues, hrest⟩ := Prod.mk.inj heq
      have hdigits : ∀ c ∈ (sign s).2, Text.isDecimalDigit c = true := List.dropWhile_eq_nil_iff.mp hrest
      have hall : (sign s).2.takeWhile Text.isDecimalDigit = (sign s).2 :=
        List.takeWhile_eq_self_iff.mpr hdigits
      have hne : (sign s).2 ≠ [] := by
        intro hnil
        rw [hnil] at hvalues
        cases hvalues
      rw [hall] at hvalues
      obtain ⟨sgn, hs, hnegative⟩ := exists_sign s
      exact ⟨⟨sgn, _, hne, hdigits⟩, hs, hnegative.symm, hvalues⟩
    · obtain ⟨m, -, h⟩ := Option.bind_eq_some_iff.mp h
      obtain ⟨e, -, h⟩ := Option.bind_eq_some_iff.mp h
      cases h
  · rintro ⟨w, rfl, rfl, rfl⟩
    obtain ⟨d, ds, hvalues⟩ := List.exists_cons_of_ne_nil w.values_ne_nil
    unfold Numeral.read?
    rw [w.sign_text]
    dsimp only
    rw [w.digits_digits, hvalues]

namespace IntegerText

/-- The digits of an integer are read as its value, if they are not too many. -/
theorem read_values {w : IntegerText} (h : w.digits.length ≤ Limit.digits) :
    Decimal.read w.negative w.values = .ok w.value := by
  rw [Decimal.read, if_pos (w.length_values.trans_le h), Text.ofDigitValues_eq_ofDigits, value]

end IntegerText

/-- **A text is read as an integer** iff it is one of its spellings between blanks, with digits that are
not too many. -/
theorem Number.ofText?_eq_int_iff {text : String} {n : Int} :
    Number.ofText? text = .ok (some (.int n)) ↔
      ∃ w : IntegerText, Text.trim text.toList = w.text ∧ w.digits.length ≤ Limit.digits ∧ w.value = n := by
  constructor
  · intro h
    unfold Number.ofText? at h
    split at h
    · cases h
    · rename_i numeral hread
      obtain ⟨number, hnumber, hsome⟩ := map_eq_ok_iff.mp h
      cases hsome
      cases numeral with
      | decimal => cases hnumber
      | integer negative ds =>
          obtain ⟨w, hw, rfl, rfl⟩ := Numeral.read?_eq_integer_iff.mp hread
          obtain ⟨m, hm, hint⟩ := map_eq_ok_iff.mp hnumber
          cases hint
          have hlength : w.digits.length ≤ Limit.digits := by
            by_contra hlong
            rw [← w.length_values] at hlong
            rw [Decimal.read, if_neg hlong] at hm
            cases hm
          rw [w.read_values hlength] at hm
          exact ⟨w, hw, hlength, Except.ok.inj hm⟩
  · rintro ⟨w, hw, hlength, rfl⟩
    have hread := Numeral.read?_eq_integer_iff.mpr ⟨w, hw, rfl, rfl⟩
    rw [Number.ofText?, hread]
    dsimp only
    rw [Numeral.value, w.read_values hlength]
    rfl

/-! ## Writing integers -/

namespace IntegerText

/-- The ASCII digits of a natural number are digits. -/
theorem isDigit_of_mem_ofNat {n : Nat} {c : Char} (h : c ∈ Decimal.ofNat n) : c.isDigit = true :=
  Nat.isDigit_of_mem_toDigits (by decide) (by decide) h

/-- Every natural number has a digit. -/
theorem ofNat_ne_nil (n : Nat) : Decimal.ofNat n ≠ [] := Nat.toDigits_ne_nil

/-- The **usual spelling** of an integer. -/
def ofInt (n : Int) : IntegerText where
  sign := if n < 0 then some true else none
  digits := Decimal.ofNat n.natAbs
  ne_nil := ofNat_ne_nil n.natAbs
  decimal c hc := by
    rw [Text.isDecimalDigit, Text.digitValue?_of_isDigit (isDigit_of_mem_ofNat hc)]
    rfl

/-- It is the decimal text. -/
theorem text_ofInt (n : Int) : (ofInt n).text = Decimal.ofInt n := by
  cases n with
  | ofNat n => rfl
  | negSucc n =>
      have hnegative : Int.negSucc n < 0 := Int.negSucc_lt_zero n
      show signText (if _ then some true else none) ++ Decimal.ofNat (n + 1) = _
      rw [if_pos hnegative]
      rfl

/-- The values of the digits of a natural number write the number. -/
theorem ofDigitValues_ofNat (n : Nat) :
    Text.ofDigitValues 10 ((Decimal.ofNat n).map fun c => c.toNat - 48) = n := by
  rw [Text.ofDigitValues_map]
  exact Nat.ofDigitChars_toDigits (by decide) (by decide)

/-- **An integer is the value of its usual spelling.** -/
theorem value_ofInt (n : Int) : (ofInt n).value = n := by
  have hvalues : (ofInt n).values = (Decimal.ofNat n.natAbs).map fun c => c.toNat - 48 :=
    Text.filterMap_digitValue?_of_isDigit fun _ hc => isDigit_of_mem_ofNat hc
  have hnegative : (ofInt n).negative = decide (n < 0) := by
    by_cases h : n < 0 <;> simp [negative, ofInt, h]
  rw [value, hvalues, ← Text.ofDigitValues_eq_ofDigits, ofDigitValues_ofNat, hnegative]
  by_cases h : n < 0
  · rw [if_pos (decide_eq_true h)]
    omega
  · rw [if_neg (by simpa using h)]
    omega

/-- A natural number within the limit has no more digits than it allows. -/
theorem length_ofNat_le {n : Nat} (h : n < 10 ^ Limit.digits) : (Decimal.ofNat n).length ≤ Limit.digits :=
  Nat.toDigits_length 10 n Limit.digits (by decide) h

end IntegerText

end Stencil
