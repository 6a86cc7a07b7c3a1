import Stencil.Proofs.Text.DigitRun
import Stencil.Proofs.Value.Part
import Stencil.Condition.Basic

/-! # Data within the limits

Values whose integers, texts and lengths keep to the limits can be looked at in any way.

* `Bounded` bounds the integers, the runs of digits and the lengths in a value, at every depth;
  `Bounded.part` carries it over to all that can be read out of the value.
* `Bounded.exists_step`, `Bounded.exists_scalar` and `Operator.exists_apply`: such values can be walked
  into, shown and compared, whatever their kinds. -/

namespace Stencil

/-- Whether a value **keeps to the limits**: no integer in it has too many digits to be written, no text
has a run of too many digits to be read, and no length is beyond an index. -/
inductive Bounded : Value → Prop
  | null : Bounded .null
  | undefined : Bounded .undefined
  | bool (b : Bool) : Bounded (.bool b)
  | int {n : Int} (size : n.natAbs < Nat.pow 10 Limit.digits) : Bounded (.int n)
  | float (x : Double) : Bounded (.float x)
  | text {s : String} (digits : DigitRunsFit s.toList) (length : s.length < Limit.lengths) :
      Bounded (.text s)
  | bytes {bs : List UInt8} (length : bs.length < Limit.lengths) : Bounded (.bytes bs)
  | list {items : List Value} (length : items.length < Limit.lengths)
      (parts : ∀ v ∈ items, Bounded v) : Bounded (.list items)
  | tuple {items : List Value} (length : items.length < Limit.lengths)
      (parts : ∀ v ∈ items, Bounded v) : Bounded (.tuple items)
  | map {entries : List (Value × Value)} (keys : ∀ e ∈ entries, Bounded e.1)
      (parts : ∀ e ∈ entries, Bounded e.2) : Bounded (.map entries)
  | object {attributes : List (String × Value)} (parts : ∀ a ∈ attributes, Bounded a.2) :
      Bounded (.object attributes)
  | range {start stop step : Int} (length : Value.rangeLength start stop step < Limit.lengths)
      (items : ∀ n ∈ Value.rangeItems start stop step, n.natAbs < Nat.pow 10 Limit.digits) :
      Bounded (.range start stop step)
  | stream {id : Nat} {items : List Value} (length : items.length < Limit.lengths)
      (parts : ∀ v ∈ items, Bounded v) : Bounded (.stream id items)
  | callable (f : Callable) : Bounded (.callable f)

/-- A number of items within the limit has few digits. -/
theorem Limit.lengths_le : Limit.lengths ≤ Nat.pow 10 Limit.digits := by
  decide +kernel

/-- A row of values has as many positions as values. -/
@[simp] theorem Value.length_enumerate (items : List Value) : (enumerate items).length = items.length := by
  rw [enumerate, List.length_mapIdx]

namespace Bounded

variable {v w : Value}

/-- A small integer keeps to the limits. -/
theorem ofSmall {n : Int} (h : n.natAbs < 256) : Bounded (.int n) := by
  have hpow : 256 ≤ Nat.pow 10 Limit.digits := by decide +kernel
  exact .int (Nat.lt_of_lt_of_le h hpow)

/-- A single character keeps to the limits. -/
theorem ofChar (c : Char) : Bounded (.text (String.singleton c)) := by
  refine .text (digitRunsFit_of_length_le ?_) ?_
  · simp [Limit.digits]
  · simp [Limit.lengths]

/-- What is walked with positions has no more pairs than an index can count. -/
theorem length_pairs_lt (h : Bounded v) (hsequence : ∀ entries, v ≠ .map entries) :
    v.pairs.length < Limit.lengths := by
  have hpos : 0 < Limit.lengths := by decide
  cases h with
  | map => exact absurd rfl (hsequence _)
  | text _ length =>
      rw [Value.pairs, Value.length_enumerate, List.length_map, String.length_toList]
      exact length
  | bytes length => rwa [Value.pairs, Value.length_enumerate, List.length_map]
  | list length => rwa [Value.pairs, Value.length_enumerate]
  | tuple length => rwa [Value.pairs, Value.length_enumerate]
  | stream length => rwa [Value.pairs, Value.length_enumerate]
  | range length =>
      rw [Value.pairs, Value.length_enumerate, List.length_map, Value.rangeItems, List.length_map,
        List.length_range]
      exact length
  | _ => exact hpos

/-- **What is read out of a value** that keeps to the limits keeps to them. -/
theorem part (h : Bounded v) (hw : Part v w) : Bounded w := by
  cases hw with
  | undefined => exact .undefined
  | key mem => cases h with | map keys _ => exact keys _ mem
  | value mem => cases h with | map _ parts => exact parts _ mem
  | listItem mem => cases h with | list _ parts => exact parts _ mem
  | tupleItem mem => cases h with | tuple _ parts => exact parts _ mem
  | streamItem mem => cases h with | stream _ parts => exact parts _ mem
  | member mem => cases h with | object parts => exact parts _ mem
  | rangeItem mem => cases h with | range _ items => exact .int (items _ mem)
  | character s c => exact ofChar c
  | byte bs b => exact ofSmall b.toNat_lt
  | bit v b => exact ofSmall (by cases b <;> decide)
  | position sequence lt =>
      have hlt := Nat.lt_trans lt (h.length_pairs_lt sequence)
      exact .int (Nat.lt_of_lt_of_le hlt Limit.lengths_le)
  | integer => exact h
  | double | zero => exact .float _
  | idle => exact .bool false
  | nothing => exact .null
  | callable => exact .callable _

end Bounded

/-! ## Keys and paths -/

/-- Whether the name that a key is has **no run of too many digits**. -/
def Key.Fits : Key → Prop
  | .index _ => True
  | .name s => DigitRunsFit s.toList

namespace Key

/-- A name within the limit is no number, or one that can be read. -/
theorem digits?_of_fits {s : String} (h : DigitRunsFit s.toList) :
    digits? s = none ∨ ∃ n, digits? s = some (.ok n) := by
  unfold digits?
  split
  · exact Or.inl rfl
  · split
    · rename_i hdigits
      have hlength : (s.toList.filterMap Text.asciiDigit?).length ≤ Limit.digits := by
        refine (List.length_filterMap_le _ _).trans (h _ List.infix_rfl fun c hc => ?_)
        exact isDecimalDigit_of_isDigit c (List.all_eq_true.mp hdigits c hc)
      cases hread : Decimal.read false (s.toList.filterMap Text.asciiDigit?) with
      | ok n => exact Or.inr ⟨n, rfl⟩
      | error l => exact absurd hread (Decimal.read_ne_error hlength false l)
    · exact Or.inl rfl

/-- A key within the limit has its other spelling, if there is one. -/
theorem Fits.exists_other {key : Key} (h : key.Fits) : ∃ k, key.other? = .ok k := by
  cases key with
  | index n => exact ⟨_, rfl⟩
  | name s =>
      rcases digits?_of_fits h with hs | ⟨n, hs⟩
      · exact ⟨_, by rw [other?, hs]⟩
      · exact ⟨_, by rw [other?, hs]; rfl⟩

/-- A key within the limit means a position, or none. -/
theorem Fits.exists_position {key : Key} (h : key.Fits) : ∃ i, key.position? = .ok i := by
  cases key with
  | index n => exact ⟨_, rfl⟩
  | name s =>
      rcases digits?_of_fits h with hs | ⟨n, hs⟩
      · exact ⟨_, by rw [position?, hs]⟩
      · exact ⟨_, by rw [position?, hs]; rfl⟩

/-- A key within the limit finds something in every mapping, if only the value of what is absent. -/
theorem Fits.exists_entry {key : Key} (h : key.Fits) (entries : List (Value × Value)) :
    ∃ w, Value.entry entries key = .ok w := by
  obtain ⟨k, hk⟩ := h.exists_other
  rw [Value.entry]
  split
  · exact ⟨_, rfl⟩
  · rw [hk]
    cases k with
    | none => exact ⟨_, rfl⟩
    | some k => exact ⟨_, rfl⟩

end Key

namespace Bounded

variable {v w : Value} {key : Key}

/-- The length of a sequence fits an index. -/
theorem lengthFits (h : Bounded v) : v.lengthFits = true := by
  cases h with
  | range length => exact decide_eq_true length
  | _ => rfl

/-- **One step of a path** is taken in every value. -/
theorem exists_step (h : Bounded v) (hkey : key.Fits) : ∃ w, v.step key = .ok w ∧ Bounded w := by
  have hstep : ∃ w, v.step key = .ok w := by
    unfold Value.step
    split
    · exact ⟨_, rfl⟩
    · exact ⟨_, rfl⟩
    · exact hkey.exists_entry _
    · split
      · -- only an index that cannot be read, or a length that does not fit, would be refused
        obtain ⟨position, hposition⟩ := hkey.exists_position
        rw [Value.element, hposition, ok_bind]
        cases position with
        | none => exact ⟨_, rfl⟩
        | some i =>
            dsimp only
            split
            · exact ⟨_, rfl⟩
            · rw [if_pos h.lengthFits]
              exact ⟨_, rfl⟩
      · split <;> exact ⟨_, rfl⟩
  obtain ⟨w, hw⟩ := hstep
  exact ⟨w, hw, h.part (.of_step hw)⟩

/-- Keys are followed through every value. -/
theorem exists_follow {keys : List Key} (h : Bounded v) (hkeys : ∀ key ∈ keys, key.Fits) :
    ∃ w, v.follow keys = .ok w ∧ Bounded w := by
  induction keys generalizing v with
  | nil => exact ⟨v, rfl, h⟩
  | cons key keys ih =>
      obtain ⟨u, hu, hbounded⟩ := h.exists_step (hkeys key List.mem_cons_self)
      obtain ⟨w, hw, hwBounded⟩ := ih hbounded fun k hk => hkeys k (List.mem_cons_of_mem _ hk)
      exact ⟨w, by rw [Value.follow, hu, ok_bind, hw], hwBounded⟩

/-! ## Showing and comparing -/

/-- **Every value can be shown**, or has no text. -/
theorem exists_scalar (h : Bounded v) : ∃ text, v.scalar? = .ok text := by
  cases h with
  | int size =>
      rw [Value.scalar?, Decimal.text?, if_pos size]
      exact ⟨_, rfl⟩
  | _ => exact ⟨_, rfl⟩

end Bounded

/-- Whether a value that is a text **can be read as a number**, or as none. -/
def Value.Readable (v : Value) : Prop := ∀ s, v = .text s → DigitRunsFit s.toList

/-- A text within the limits can be read. -/
theorem Bounded.readable {v : Value} (h : Bounded v) : v.Readable := by
  rintro s rfl
  cases h with | text digits _ => exact digits

namespace Value

/-- Whether a value **can be read beside a number**: if it is a text that looks like an integer, it has no
more digits than the limit allows. -/
def NumeralFits (v : Value) : Prop :=
  ∀ s negative ds, v = .text s →
    Numeral.read? (Text.trim s.toList) = some (.integer negative ds) → ds.length ≤ Limit.digits

/-- A text that can be read can be read beside a number. -/
theorem Readable.numeralFits {v : Value} (h : v.Readable) : v.NumeralFits := by
  rintro s negative ds rfl hread
  exact Numeral.length_le_of_read? ((h s rfl).of_isInfix (trim_isInfix _)) hread

/-- A text within the limit is read as a number, or stays as it is. -/
theorem NumeralFits.exists_numeric {s : String} (h : NumeralFits (.text s)) : ∃ v, numeric s = .ok v := by
  unfold numeric Number.ofText?
  split
  · exact ⟨_, rfl⟩
  · rename_i numeral hread
    cases numeral with
    | integer negative ds =>
        rw [Numeral.value, Decimal.read, if_pos (h s negative ds rfl hread)]
        exact ⟨_, rfl⟩
    | decimal => exact ⟨_, rfl⟩

/-- Two values within the limit are brought to numbers. -/
theorem NumeralFits.exists_coerce {l r : Value} (hl : l.NumeralFits) (hr : r.NumeralFits) :
    ∃ p, l.coerce r = .ok p := by
  unfold coerce
  split
  · split
    · obtain ⟨v, hv⟩ := hr.exists_numeric
      exact ⟨_, by rw [hv]; rfl⟩
    · exact ⟨_, rfl⟩
  · split
    · obtain ⟨v, hv⟩ := hl.exists_numeric
      exact ⟨_, by rw [hv]; rfl⟩
    · exact ⟨_, rfl⟩
  · exact ⟨_, rfl⟩

end Value

/-- **Every operator gives a verdict** on values that can be read, comparable or not. -/
theorem Operator.exists_apply (op : Operator) {l r : Value} (hl : l.Readable) (hr : r.Readable) :
    ∃ verdict, op.apply l r = .ok verdict := by
  have horder : ∃ verdict, op.order l r = .ok verdict := by
    obtain ⟨⟨l', r'⟩, hp⟩ := hl.numeralFits.exists_coerce hr.numeralFits
    rw [order, hp, ok_bind]
    dsimp only
    split <;> exact ⟨_, rfl⟩
  cases op with
  | same => exact ⟨_, rfl⟩
  | different => exact ⟨_, rfl⟩
  | less => exact horder
  | greater => exact horder
  | atMost => exact horder
  | atLeast => exact horder

end Stencil
