import Stencil.Proofs.Value.Sameness
import Stencil.Proofs.Value.Scope

/-! # Well-formed values

Values in which every mapping has its keys once, and every record its names.

* `Value.WellFormed` is this property of a value and everything that equality looks at in it.
* `Value.WellFormed.ofEntries` and `Value.WellFormed.ofAttributes`: mappings and records that are built entry
  by entry have it, whatever the entries. -/

namespace Stencil.Value

/-- Whether a value is **well formed**: in no mapping in it are two keys equal, and in no record in it do
two attributes share their name. -/
inductive WellFormed : Value → Prop
  | atom {v : Value} (atom : v.isAtom = true) : WellFormed v
  | list {items : List Value} (parts : ∀ v ∈ items, WellFormed v) : WellFormed (.list items)
  | tuple {items : List Value} (parts : ∀ v ∈ items, WellFormed v) : WellFormed (.tuple items)
  | map {entries : List (Value × Value)} (keys : ∀ e ∈ entries, WellFormed e.1)
      (values : ∀ e ∈ entries, WellFormed e.2)
      (apart : entries.Pairwise fun d e => equal e.1 d.1 = false) : WellFormed (.map entries)
  | object {attributes : List (String × Value)} (values : ∀ a ∈ attributes, WellFormed a.2)
      (apart : attributes.Pairwise fun d a => a.1 ≠ d.1) : WellFormed (.object attributes)

/-! ## Setting entries and attributes -/

/-- Setting an entry keeps the keys apart. -/
theorem setEntry_apart {key v : Value} {entries : List (Value × Value)}
    (h : entries.Pairwise fun d e => equal e.1 d.1 = false) :
    (setEntry key v entries).Pairwise fun d e => equal e.1 d.1 = false := by
  induction entries with
  | nil => exact List.pairwise_singleton _ _
  | cons d rest ih =>
      obtain ⟨hfirst, hrest⟩ := List.pairwise_cons.mp h
      unfold setEntry
      split
      · exact List.pairwise_cons.mpr ⟨hfirst, hrest⟩
      · -- the key is new up to here, and what follows holds it or keys that were there
        rename_i hnew
        refine List.pairwise_cons.mpr ⟨fun e he => ?_, ih hrest⟩
        rcases (mem_setEntry he).1 with hkey | ⟨e', he', hkey⟩
        · rw [hkey]; exact Bool.eq_false_iff.mpr hnew
        · rw [hkey]; exact hfirst e' he'

/-- The attributes after one is set: the new one, and those that were there. -/
theorem mem_setAttribute {name : String} {v : Value} {attributes : List (String × Value)}
    {a : String × Value} (ha : a ∈ setAttribute name v attributes) : a = (name, v) ∨ a ∈ attributes := by
  induction attributes with
  | nil => exact .inl (List.mem_singleton.mp ha)
  | cons d rest ih =>
      unfold setAttribute at ha
      split at ha
      · rename_i hname
        rw [← beq_iff_eq.mp hname] at ha
        exact (List.mem_cons.mp ha).imp id (List.mem_cons_of_mem _)
      · rcases List.mem_cons.mp ha with rfl | ha
        · exact .inr List.mem_cons_self
        · exact (ih ha).imp id (List.mem_cons_of_mem _)

/-- Setting an attribute keeps the names apart. -/
theorem setAttribute_apart {name : String} {v : Value} {attributes : List (String × Value)}
    (h : attributes.Pairwise fun d a => a.1 ≠ d.1) :
    (setAttribute name v attributes).Pairwise fun d a => a.1 ≠ d.1 := by
  induction attributes with
  | nil => exact List.pairwise_singleton _ _
  | cons d rest ih =>
      obtain ⟨hfirst, hrest⟩ := List.pairwise_cons.mp h
      unfold setAttribute
      split
      · exact List.pairwise_cons.mpr ⟨hfirst, hrest⟩
      · rename_i hnew
        refine List.pairwise_cons.mpr ⟨fun a ha => ?_, ih hrest⟩
        rcases mem_setAttribute ha with rfl | ha
        · exact fun hname => hnew (beq_iff_eq.mpr hname)
        · exact hfirst a ha

namespace WellFormed

/-- Atoms are well formed. -/
theorem atoms {items : List Value} (h : items.all isAtom = true) : ∀ v ∈ items, WellFormed v :=
  fun v hv => .atom (List.all_eq_true.mp h v hv)

/-- Setting an entry in a well-formed mapping. -/
theorem setEntry {key v : Value} {entries : List (Value × Value)} (h : WellFormed (.map entries))
    (hkey : WellFormed key) (hv : WellFormed v) : WellFormed (.map (Value.setEntry key v entries)) := by
  cases h with
  | atom h => cases h
  | map keys values apart =>
      have hentries := forall_mem_setEntry hkey hv keys values
      exact .map (fun e he => (hentries e he).1) (fun e he => (hentries e he).2) (setEntry_apart apart)

/-- Setting an attribute of a well-formed record. -/
theorem setAttribute {name : String} {v : Value} {attributes : List (String × Value)}
    (h : WellFormed (.object attributes)) (hv : WellFormed v) :
    WellFormed (.object (Value.setAttribute name v attributes)) := by
  cases h with
  | atom h => cases h
  | object values apart =>
      refine .object (fun a ha => ?_) (setAttribute_apart apart)
      rcases mem_setAttribute ha with rfl | ha
      · exact hv
      · exact values a ha

/-- **A mapping that is built of entries** is well formed. -/
theorem ofEntries {entries : List (Value × Value)}
    (h : ∀ e ∈ entries, WellFormed e.1 ∧ WellFormed e.2) : WellFormed (Value.ofEntries entries) :=
  List.foldlRecOn entries _ (motive := fun es => WellFormed (.map es)) (.map nofun nofun .nil)
    fun _ hes e he => hes.setEntry (h e he).1 (h e he).2

/-- **A record that is built of attributes** is well formed. -/
theorem ofAttributes {attributes : List (String × Value)} (h : ∀ a ∈ attributes, WellFormed a.2) :
    WellFormed (Value.ofAttributes attributes) :=
  List.foldlRecOn attributes _ (motive := fun as => WellFormed (.object as)) (.object nofun .nil)
    fun _ has a ha => has.setAttribute (h a ha)

end WellFormed

end Stencil.Value
