import Stencil.Proofs.Result
import Stencil.Tree.Render

/-! # Parts of a value

What can be read out of a value, by one step of a path or as one of its pairs.

* `Part` says which values these are: the items, keys, values and attributes that the value holds, and a
  few values without parts.
* `Part.of_step` and `Part.of_mem_pairs` say that there are no others. -/

namespace Stencil

/-- Whether a value **can be read out of** another one. -/
inductive Part : Value → Value → Prop
  | undefined (v : Value) : Part v .undefined
  | key {entries : List (Value × Value)} {e : Value × Value} (mem : e ∈ entries) :
      Part (.map entries) e.1
  | value {entries : List (Value × Value)} {e : Value × Value} (mem : e ∈ entries) :
      Part (.map entries) e.2
  | listItem {items : List Value} {v : Value} (mem : v ∈ items) : Part (.list items) v
  | tupleItem {items : List Value} {v : Value} (mem : v ∈ items) : Part (.tuple items) v
  | streamItem {id : Nat} {items : List Value} {v : Value} (mem : v ∈ items) :
      Part (.stream id items) v
  | character (s : String) (c : Char) : Part (.text s) (.text (String.singleton c))
  | byte (bs : List UInt8) (b : UInt8) : Part (.bytes bs) (.int b.toNat)
  | rangeItem {start stop step n : Int} (mem : n ∈ Value.rangeItems start stop step) :
      Part (.range start stop step) (.int n)
  | position {v : Value} {i : Nat} (sequence : ∀ entries, v ≠ .map entries) (lt : i < v.pairs.length) :
      Part v (.int i)
  | member {attributes : List (String × Value)} {a : String × Value} (mem : a ∈ attributes) :
      Part (.object attributes) a.2
  | integer (n : Int) : Part (.int n) (.int n)
  | bit (v : Value) (b : Bool) : Part v (.int (if b then 1 else 0))
  | double (x : Double) : Part (.float x) (.float x)
  | zero (x : Double) : Part (.float x) (.float (Double.zero false))
  | idle (id : Nat) (items : List Value) : Part (.stream id items) (.bool false)
  | nothing (id : Nat) (items : List Value) : Part (.stream id items) .null
  | callable (v : Value) (f : Callable) : Part v (.callable f)

namespace Value

variable {entries : List (Value × Value)}

/-- What is found in a mapping is the value of an entry. -/
theorem exists_of_lookup? {key v : Value} (h : lookup? key entries = some v) :
    ∃ e ∈ entries, e.2 = v := by
  obtain ⟨e, hfind, rfl⟩ := Option.map_eq_some_iff.mp h
  exact ⟨e, List.mem_of_find?_eq_some hfind, rfl⟩

/-- **What a key finds in a mapping** is the value of an entry, or the value of what is absent. -/
theorem exists_of_entry {key : Key} {w : Value} (h : entry entries key = .ok w) :
    w = .undefined ∨ ∃ e ∈ entries, e.2 = w := by
  unfold entry at h
  split at h
  · rename_i v hv
    cases h
    exact Or.inr (exists_of_lookup? hv)
  · -- the key may be found under its other spelling
    obtain ⟨other, -, h⟩ := bind_eq_ok_iff.mp h
    cases other with
    | none => cases h; exact Or.inl rfl
    | some k =>
        cases h
        cases hlookup : lookup? k entries with
        | none => exact Or.inl rfl
        | some v => exact Or.inr (exists_of_lookup? hlookup)

end Value

namespace Part

/-! ## Steps of a path -/

/-- The item of a sequence at a position. -/
theorem of_item? {v w : Value} {i : Nat} (h : v.item? i = some w) : Part v w := by
  unfold Value.item? at h
  split at h
  · obtain ⟨c, -, rfl⟩ := Option.map_eq_some_iff.mp h
    exact .character _ c
  · obtain ⟨b, -, rfl⟩ := Option.map_eq_some_iff.mp h
    exact .byte _ b
  · exact .listItem (List.mem_of_getElem? h)
  · exact .tupleItem (List.mem_of_getElem? h)
  · split at h
    · rename_i hlt
      cases h
      exact .rangeItem (List.mem_map.mpr ⟨i, List.mem_range.mpr hlt, rfl⟩)
    · cases h
  · cases h

/-- The item that a key means in a sequence. -/
theorem of_element {v w : Value} {key : Key} (h : v.element key = .ok w) : Part v w := by
  obtain ⟨position, -, h⟩ := bind_eq_ok_iff.mp h
  cases position with
  | none => cases h; exact .undefined v
  | some i =>
      dsimp only at h
      split at h
      · cases h; exact .undefined v
      · split at h
        · cases h
          cases hitem : v.item? i.toNat with
          | none => exact .undefined v
          | some w => exact of_item? hitem
        · cases h

/-- The attributes of an integer or a truth value. -/
theorem of_integerAttribute? {v w : Value} {n : Int} {kind name : String} {method : String → Callable}
    (hn : Part v (.int n)) (h : Value.integerAttribute? n kind method name = some w) : Part v w := by
  unfold Value.integerAttribute? at h
  repeat' split at h
  all_goals cases h
  · exact hn
  · exact .bit v false
  · exact .bit v true
  · exact .callable v _
  · exact .callable v _

/-- The public attributes of a value. -/
theorem of_attribute? {v w : Value} {name : String} (h : v.attribute? name = some w) : Part v w := by
  unfold Value.attribute? at h
  split at h
  · obtain ⟨a, hfind, rfl⟩ := Option.map_eq_some_iff.mp h
    exact .member (List.mem_of_find?_eq_some hfind)
  · exact of_integerAttribute? (.integer _) h
  · exact of_integerAttribute? (.bit _ _) h
  · repeat' split at h
    all_goals cases h
    · exact .double _
    · exact .zero _
    · exact .callable _ _
    · exact .callable _ _
  · repeat' split at h
    all_goals cases h
    · exact .idle _ _
    · exact .nothing _ _
    · exact .callable _ _
  · cases h

/-- **One step of a path** leads to a part. -/
theorem of_step {v w : Value} {key : Key} (h : v.step key = .ok w) : Part v w := by
  unfold Value.step at h
  split at h
  · cases h; exact .undefined _
  · cases h; exact .undefined _
  · rcases Value.exists_of_entry h with rfl | ⟨e, he, rfl⟩
    · exact .undefined _
    · exact .value he
  · split at h
    · exact of_element h
    · split at h
      · cases h; exact .undefined v
      · rename_i s
        cases h
        split
        · exact .undefined v
        · cases hattribute : v.attribute? s with
          | none => exact .undefined v
          | some a => exact of_attribute? hattribute

/-! ## Pairs -/

/-- A row of values with their positions holds these values, and positions in the row. -/
theorem of_mem_enumerate {v : Value} {items : List Value} {p : Value × Value}
    (hsequence : ∀ entries, v ≠ .map entries) (hpairs : v.pairs = Value.enumerate items)
    (hitems : ∀ w ∈ items, Part v w) (hp : p ∈ v.pairs) : Part v p.1 ∧ Part v p.2 := by
  have hlength : v.pairs.length = items.length := by
    rw [hpairs, Value.enumerate, List.length_mapIdx]
  rw [hpairs] at hp
  obtain ⟨i, hi, rfl⟩ := List.mem_mapIdx.mp hp
  exact ⟨.position hsequence (by omega), hitems _ (List.getElem_mem hi)⟩

/-- **The keys and values of the pairs** of a value are parts of it. -/
theorem of_mem_pairs {v : Value} {p : Value × Value} (hp : p ∈ v.pairs) : Part v p.1 ∧ Part v p.2 := by
  cases v with
  | map entries => exact ⟨.key hp, .value hp⟩
  | text s =>
      refine of_mem_enumerate (fun _ => nofun) rfl (fun w hw => ?_) hp
      obtain ⟨c, -, rfl⟩ := List.mem_map.mp hw
      exact .character s c
  | bytes bs =>
      refine of_mem_enumerate (fun _ => nofun) rfl (fun w hw => ?_) hp
      obtain ⟨b, -, rfl⟩ := List.mem_map.mp hw
      exact .byte bs b
  | list items => exact of_mem_enumerate (fun _ => nofun) rfl (fun w hw => .listItem hw) hp
  | tuple items => exact of_mem_enumerate (fun _ => nofun) rfl (fun w hw => .tupleItem hw) hp
  | stream id items => exact of_mem_enumerate (fun _ => nofun) rfl (fun w hw => .streamItem hw) hp
  | range start stop step =>
      refine of_mem_enumerate (fun _ => nofun) rfl (fun w hw => ?_) hp
      obtain ⟨n, hn, rfl⟩ := List.mem_map.mp hw
      exact .rangeItem hn
  | _ => cases hp

end Part

end Stencil
