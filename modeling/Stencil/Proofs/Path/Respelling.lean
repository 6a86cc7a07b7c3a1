import Mathlib.Data.List.Forall2
import Stencil.Path.Resolve
import Stencil.Proofs.Path.Reading
import Stencil.Proofs.Value.Scope

/-! # Numbers in paths

A number in a path can stand between brackets or behind a point: as an integer, or as the name that its
digits are.

* `Key.Respelled` relates two keys of which one is the other spelling of a number.
* `Value.TellsApart` says which values can tell the two spellings of a number apart; to all others,
  `Value.step_respelled`, both are the same step.
* `Value.resolve_respelled`: two paths that differ in spellings of a number lead to the same value, unless
  a value that they pass tells these apart. -/

namespace Stencil

/-! ## The two spellings of a number -/

namespace Key

/-- Whether one key is another one, or **the other spelling of the number** `n`. -/
inductive Respelled (n : Nat) : Key → Key → Prop
  | same (key : Key) : Respelled n key key
  | named : Respelled n (.index n) (.name (Decimal.text n))
  | indexed : Respelled n (.name (Decimal.text n)) (.index n)

/-- The decimal text of a number is its digits. -/
theorem toList_text (n : Nat) : (Decimal.text n).toList = Decimal.ofNat n := String.toList_ofList

/-- **The digits of a number name it**, if they are not too many. -/
theorem digits?_text {n : Nat} (hn : (Decimal.ofNat n).length ≤ Limit.digits) :
    digits? (Decimal.text n) = some (.ok (n : Int)) := by
  have hdigits : ∀ c ∈ Decimal.ofNat n, c.isDigit = true := fun _ => IntegerText.isDigit_of_mem_ofNat
  rw [digits?, toList_text]
  split
  · rename_i hnil
    exact absurd hnil (IntegerText.ofNat_ne_nil n)
  · rw [if_pos (List.all_eq_true.mpr hdigits), Path.filterMap_asciiDigit hdigits, Decimal.read,
      List.length_map, if_pos hn, IntegerText.ofDigitValues_ofNat]
    rfl

/-- As positions, the two spellings of a number are the same. -/
theorem position?_text {n : Nat} (hn : (Decimal.ofNat n).length ≤ Limit.digits) :
    (Key.name (Decimal.text n)).position? = (Key.index n).position? := by
  simp only [position?, digits?_text hn]
  rfl

/-- As keys of a mapping, each of them is the other spelling of the other one. -/
theorem other?_text {n : Nat} (hn : (Decimal.ofNat n).length ≤ Limit.digits) :
    (Key.name (Decimal.text n)).other? = .ok (some (Key.index n).value) := by
  rw [other?, digits?_text hn]
  rfl

end Key

namespace Value

/-! ## Values that tell the spellings apart -/

/-- Whether a value can **tell the two spellings of a number apart**: a mapping with an entry under each
of them, and a record with an attribute that is named by the digits. -/
def TellsApart (n : Nat) : Value → Prop
  | .map entries =>
    (∃ e ∈ entries, equal (.int n) e.1 = true) ∧ ∃ e ∈ entries, equal (.text (Decimal.text n)) e.1 = true
  | .object attributes => ∃ a ∈ attributes, a.1 = Decimal.text n
  | _ => False

instance (n : Nat) : (v : Value) → Decidable (v.TellsApart n)
  | .map entries => inferInstanceAs (Decidable ((∃ e ∈ entries, equal (.int n) e.1 = true) ∧
      ∃ e ∈ entries, equal (.text (Decimal.text n)) e.1 = true))
  | .object attributes => inferInstanceAs (Decidable (∃ a ∈ attributes, a.1 = Decimal.text n))
  | .null | .undefined | .bool _ | .int _ | .float _ | .text _ | .bytes _ | .list _ | .tuple _
  | .range _ _ _ | .stream _ _ | .callable _ => inferInstanceAs (Decidable False)

/-- Something is found under a key iff an entry has an equal one. -/
theorem isSome_lookup?_iff {key : Value} {entries : List (Value × Value)} :
    (lookup? key entries).isSome = true ↔ ∃ e ∈ entries, equal key e.1 = true := by
  rw [lookup?, Option.isSome_map, List.find?_isSome]

/-- What a key with another spelling finds in a mapping: the value under the first of them that is a
key. -/
theorem entry_of_other? {key : Key} {k : Value} (h : key.other? = .ok (some k))
    (entries : List (Value × Value)) :
    entry entries key = .ok (((lookup? key.value entries).or (lookup? k entries)).getD .undefined) := by
  rw [entry, h]
  cases lookup? key.value entries <;> rfl

/-- A mapping with at most one of the spellings gives the same value for both. -/
theorem entry_text {n : Nat} (hn : (Decimal.ofNat n).length ≤ Limit.digits)
    {entries : List (Value × Value)} (h : ¬ (Value.map entries).TellsApart n) :
    entry entries (.name (Decimal.text n)) = entry entries (.index n) := by
  have hindex : (Key.index n).other? = .ok (some (Key.name (Decimal.text n)).value) := rfl
  rw [entry_of_other? (Key.other?_text hn), entry_of_other? hindex]
  cases hint : lookup? (Key.index n).value entries with
  | none => rw [Option.or_none, Option.none_or]
  | some v =>
      cases htext : lookup? (Key.name (Decimal.text n)).value entries with
      | none => rfl
      | some w =>
          -- only here would it matter which of them is looked up first
          refine absurd ⟨isSome_lookup?_iff.mp ?_, isSome_lookup?_iff.mp ?_⟩ h
          · exact Option.isSome_of_eq_some hint
          · exact Option.isSome_of_eq_some htext

/-- A sequence has the same item at both. -/
theorem element_text {n : Nat} (hn : (Decimal.ofNat n).length ≤ Limit.digits) (v : Value) :
    v.element (.name (Decimal.text n)) = v.element (.index n) := by
  rw [element, element, Key.position?_text hn]

/-- No attribute of a number is named by digits. -/
theorem not_digits_of_integerAttribute? {n : Int} {kind name : String} {method : String → Callable}
    {w : Value} (h : integerAttribute? n kind method name = some w) :
    name.toList.all Char.isDigit = false := by
  have hmethods : ∀ m ∈ integerMethods, m.toList.all Char.isDigit = false := by decide
  unfold integerAttribute? at h
  repeat' split at h
  all_goals cases h
  · rename_i hname
    rcases Bool.or_eq_true_iff.mp hname with hname | hname <;> rw [eq_of_beq hname] <;> rfl
  · rename_i hname
    rw [eq_of_beq hname]; rfl
  · rename_i hname
    rw [eq_of_beq hname]; rfl
  · rename_i hname
    rw [eq_of_beq hname]; rfl
  · rename_i hname
    exact hmethods _ (List.contains_iff_mem.mp hname)

/-- No attribute of anything but a record is named by digits. -/
theorem not_digits_of_attribute? {v w : Value} {name : String} (h : v.attribute? name = some w)
    (hobject : ∀ attributes, v ≠ .object attributes) : name.toList.all Char.isDigit = false := by
  have hdoubles : ∀ m ∈ doubleMethods, m.toList.all Char.isDigit = false := by decide
  have hstreams : ∀ m ∈ streamMembers, m.toList.all Char.isDigit = false := by decide
  unfold attribute? at h
  split at h
  · exact absurd rfl (hobject _)
  · exact not_digits_of_integerAttribute? h
  · exact not_digits_of_integerAttribute? h
  · repeat' split at h
    all_goals cases h
    all_goals rename_i hname
    · rw [eq_of_beq hname]; rfl
    · rw [eq_of_beq hname]; rfl
    · rw [eq_of_beq hname]; rfl
    · exact hdoubles _ (List.contains_iff_mem.mp hname)
  · repeat' split at h
    all_goals cases h
    all_goals rename_i hname
    · rcases Bool.or_eq_true_iff.mp hname with hname | hname <;> rw [eq_of_beq hname] <;> rfl
    · rw [eq_of_beq hname]; rfl
    · exact hstreams _ (List.contains_iff_mem.mp hname)
  · cases h

/-- No attribute has the digits of a number for its name, but where a record tells its spellings apart. -/
theorem attribute?_text {n : Nat} {v : Value} (h : ¬ v.TellsApart n) :
    v.attribute? (Decimal.text n) = none := by
  by_contra hsome
  obtain ⟨w, hw⟩ := Option.ne_none_iff_exists'.mp hsome
  cases v with
  | object attributes =>
      obtain ⟨a, ha, -⟩ := Option.map_eq_some_iff.mp hw
      have hname := List.find?_some ha
      exact h ⟨a, List.mem_of_find?_eq_some ha, eq_of_beq hname⟩
  | _ =>
      have hletter := not_digits_of_attribute? hw fun _ => nofun
      rw [Key.toList_text, List.all_eq_true.mpr fun _ => IntegerText.isDigit_of_mem_ofNat] at hletter
      cases hletter

/-- **Both spellings of a number are the same step** from a value that does not tell them apart. -/
theorem step_text {n : Nat} (hn : (Decimal.ofNat n).length ≤ Limit.digits) {v : Value}
    (h : ¬ v.TellsApart n) : v.step (.name (Decimal.text n)) = v.step (.index n) := by
  unfold step
  split
  · rfl
  · rfl
  · exact entry_text hn h
  · split
    · exact element_text hn _
    · -- neither a name of digits nor a position is an attribute
      dsimp only
      rw [attribute?_text h]
      split <;> rfl

/-- So are a key and its respelling. -/
theorem step_respelled {n : Nat} (hn : (Decimal.ofNat n).length ≤ Limit.digits) {v : Value}
    (h : ¬ v.TellsApart n) {key key' : Key} (hkey : key.Respelled n key') :
    v.step key' = v.step key := by
  cases hkey with
  | same => rfl
  | named => exact step_text hn h
  | indexed => exact (step_text hn h).symm

/-! ## Paths -/

/-- Whether a value is **met on the way** of a row of keys: a key is followed from it. -/
inductive Met : Value → List Key → Value → Prop
  | here {v : Value} {key : Key} {keys : List Key} : Met v (key :: keys) v
  | later {v w u : Value} {key : Key} {keys : List Key} (step : v.step key = .ok w)
      (met : Met w keys u) : Met v (key :: keys) u

/-- Following keys, some of which are respelled. -/
theorem follow_respelled {n : Nat} (hn : (Decimal.ofNat n).length ≤ Limit.digits) {keys keys' : List Key}
    (hkeys : List.Forall₂ (Key.Respelled n) keys keys') {v : Value}
    (hmet : ∀ u, v.Met keys u → ¬ u.TellsApart n) : v.follow keys' = v.follow keys := by
  induction hkeys generalizing v with
  | nil => rfl
  | cons hkey _ ih =>
      rw [follow, follow, step_respelled hn (hmet v .here) hkey]
      cases hstep : v.step _ with
      | error e => rfl
      | ok w => exact ih fun u hu => hmet u (.later hstep hu)

/-- **A number in a path may be spelled either way**: paths that differ only in whether a number of no
more than the greatest number of digits is an integer or its own digits as a name lead to the same value,
or fail alike, if no value that is met on the way tells the two apart. A mapping does so only if it has an
entry under each of them, and a record only if an attribute has digits for its name. -/
theorem resolve_respelled {n : Nat} (hn : (Decimal.ofNat n).length ≤ Limit.digits) {v : Value}
    {path path' : Path} (hkeys : List.Forall₂ (Key.Respelled n) path.keys path'.keys)
    (hmet : ∀ u, v.Met path.keys u → ¬ u.TellsApart n) : v.resolve path' = v.resolve path :=
  follow_respelled hn hkeys hmet

/-- A list whose second item is a mapping with an entry under one. -/
def shelf : Value := .map [(.text "a", .list [.null, .map [(.int 1, .text "x")]])]

theorem resolve_respelled_mixed :
    shelf.resolve ⟨"a[1].1", [.name "a", .index 1, .name "1"]⟩ = .ok (.text "x") ∧
      shelf.resolve ⟨"a.1[1]", [.name "a", .name "1", .index 1]⟩ = .ok (.text "x") := by
  have hfound : shelf.resolve ⟨"a[1].1", [.name "a", .index 1, .name "1"]⟩ = .ok (.text "x") := by rfl
  refine ⟨hfound, Eq.trans (resolve_respelled (n := 1) (by decide) ?_ fun u hu => ?_) hfound⟩
  · exact .cons (.same _) (.cons .named (.cons .indexed .nil))
  · -- the mapping, the list and the mapping in it are met
    rcases hu with _ | ⟨hstep, hu⟩
    · decide
    · cases hstep
      rcases hu with _ | ⟨hstep, hu⟩
      · decide
      · cases hstep
        rcases hu with _ | ⟨hstep, hu⟩
        · decide
        · cases hu

end Value

end Stencil
