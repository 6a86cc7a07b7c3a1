import Stencil.Proofs.Result
import Stencil.Tree.Render

/-! # Scopes

What a path finds in a scope in which names were bound.

* `Value.lookup?_setEntry`: the value of a name that was set, and under every other key what was there
  before.
* `Iteration.binds_bind`: what the names of an iteration mean in one of its rounds.
* `Iteration.exists_bind`: a property of all values of a scope is kept in a round. -/

namespace Stencil

/-- The other spelling of a key is the value of a key. -/
theorem Key.exists_of_other? {key : Key} {k : Value} (h : key.other? = .ok (some k)) :
    ∃ other : Key, k = other.value := by
  cases key with
  | index n =>
      cases h
      exact ⟨.name (Decimal.text n), rfl⟩
  | name s =>
      rw [other?] at h
      split at h
      · cases h
      · obtain ⟨n, -, hn⟩ := map_eq_ok_iff.mp h
        cases hn
        exact ⟨.index n, rfl⟩

namespace Value

/-- A text is equal only to itself. -/
theorem equal_text_iff {s : String} {v : Value} : equal (.text s) v = true ↔ v = .text s := by
  cases v with
  | text t =>
      show (s == t) = true ↔ _
      rw [beq_iff_eq, Value.text.injEq]
      exact eq_comm
  | _ => simp [equal, atomEqual, number?]

/-- Which key of a path finds a text. -/
theorem equal_value_text (key : Key) (name : String) :
    equal key.value (.text name) = decide (key = .name name) := by
  cases key with
  | index n => simp [Key.value, equal, atomEqual, number?]
  | name s =>
      show (s == name) = _
      simp [Bool.beq_eq_decide_eq]

/-- Looking a key up, entry by entry. -/
theorem lookup?_cons (key k w : Value) (entries : List (Value × Value)) :
    lookup? key ((k, w) :: entries) = if equal key k then some w else lookup? key entries := by
  rw [lookup?, List.find?_cons]
  cases equal key k <;> rfl

/-- **What a path finds** in a mapping after the value of a name was set. -/
theorem lookup?_setEntry (name : String) (v : Value) (entries : List (Value × Value)) (key : Key) :
    lookup? key.value (setEntry (.text name) v entries) =
      if key = .name name then some v else lookup? key.value entries := by
  induction entries with
  | nil =>
      rw [setEntry, lookup?_cons, equal_value_text]
      simp
  | cons e entries ih =>
      obtain ⟨k, w⟩ := e
      rw [setEntry]
      by_cases hk : equal (.text name) k = true
      · -- the entry is overwritten in its place
        obtain rfl := equal_text_iff.mp hk
        rw [if_pos hk, lookup?_cons, lookup?_cons, equal_value_text]
        by_cases hkey : key = .name name <;> simp [hkey]
      · rw [if_neg hk, lookup?_cons, lookup?_cons, ih]
        by_cases hkey : key = .name name
        · subst hkey
          have hk' : ¬ equal (Key.name name).value k = true := hk
          rw [if_neg hk', if_pos rfl, if_pos rfl]
        · rw [if_neg hkey, if_neg hkey]

/-- What stands in a mapping after an entry was set: the key or an earlier one, and the value or an
earlier one. -/
theorem mem_setEntry {key v : Value} {entries : List (Value × Value)} {e : Value × Value}
    (he : e ∈ setEntry key v entries) :
    (e.1 = key ∨ ∃ d ∈ entries, e.1 = d.1) ∧ (e.2 = v ∨ ∃ d ∈ entries, e.2 = d.2) := by
  induction entries with
  | nil =>
      obtain rfl := List.mem_singleton.mp he
      exact ⟨.inl rfl, .inl rfl⟩
  | cons d entries ih =>
      obtain ⟨k, w⟩ := d
      rw [setEntry] at he
      split at he
      · rcases List.mem_cons.mp he with rfl | he
        · exact ⟨.inr ⟨(k, w), List.mem_cons_self, rfl⟩, .inl rfl⟩
        · have hmem := List.mem_cons_of_mem (k, w) he
          exact ⟨.inr ⟨e, hmem, rfl⟩, .inr ⟨e, hmem, rfl⟩⟩
      · rcases List.mem_cons.mp he with rfl | he
        · exact ⟨.inr ⟨(k, w), List.mem_cons_self, rfl⟩, .inr ⟨(k, w), List.mem_cons_self, rfl⟩⟩
        · obtain ⟨hkey, hvalue⟩ := ih he
          refine ⟨hkey.imp_right ?_, hvalue.imp_right ?_⟩
          · rintro ⟨d, hd, heq⟩
            exact ⟨d, List.mem_cons_of_mem _ hd, heq⟩
          · rintro ⟨d, hd, heq⟩
            exact ⟨d, List.mem_cons_of_mem _ hd, heq⟩

/-- What holds of all keys and of all values of a mapping holds of them after an entry was set, if it holds
of the new ones. -/
theorem forall_mem_setEntry {P Q : Value → Prop} {key v : Value} {entries : List (Value × Value)}
    (hkey : P key) (hv : Q v) (keys : ∀ e ∈ entries, P e.1) (values : ∀ e ∈ entries, Q e.2) :
    ∀ e ∈ setEntry key v entries, P e.1 ∧ Q e.2 := by
  intro e he
  obtain ⟨hfst, hsnd⟩ := mem_setEntry he
  constructor
  · rcases hfst with heq | ⟨d, hd, heq⟩
    · rw [heq]; exact hkey
    · rw [heq]; exact keys d hd
  · rcases hsnd with heq | ⟨d, hd, heq⟩
    · rw [heq]; exact hv
    · rw [heq]; exact values d hd

end Value

namespace Iteration

/-- Whether a scope **binds the names** of an iteration to a pair, on top of a mapping: a path finds
the key under the name of the key, the value under any other name that is the name of the value, and
under every other key what it found before. -/
def Binds (it : Iteration) (entries : List (Value × Value)) (pair : Value × Value) (scope : Value) :
    Prop :=
  ∃ inner, scope = .map inner ∧ ∀ key : Key,
    Value.lookup? key.value inner =
      if it.keyName.map Key.name = some key then some pair.1
      else if key = .name it.valueName then some pair.2
      else Value.lookup? key.value entries

/-- **The scope of a round** binds the names of the iteration; that of the key wins. -/
theorem binds_bind (it : Iteration) (entries : List (Value × Value)) (pair : Value × Value) :
    it.Binds entries pair (it.bind (.map entries) pair) := by
  cases hkey : it.keyName with
  | none =>
      refine ⟨Value.setEntry (.text it.valueName) pair.2 entries, ?_, fun key => ?_⟩
      · rw [bind, hkey]
        rfl
      · rw [Value.lookup?_setEntry]
        simp [hkey]
  | some name =>
      -- the key is set last, and so wins over a value of the same name
      refine ⟨Value.setEntry (.text name) pair.1 (Value.setEntry (.text it.valueName) pair.2 entries),
        ?_, fun key => ?_⟩
      · rw [bind, hkey]
        rfl
      · rw [Value.lookup?_setEntry, Value.lookup?_setEntry]
        simp [hkey, eq_comm]

/-- **The values of the scope of a round** are those of the scope around it, and the key and the value of
the pair. -/
theorem exists_bind {P : Value → Prop} {entries : List (Value × Value)} {pair : Value × Value}
    (hentries : ∀ e ∈ entries, P e.2) (hpair : P pair.1 ∧ P pair.2) (it : Iteration) :
    ∃ inner, it.bind (.map entries) pair = .map inner ∧ ∀ e ∈ inner, P e.2 := by
  have hset : ∀ {name : String} {v : Value} {es : List (Value × Value)}, P v → (∀ e ∈ es, P e.2) →
      ∀ e ∈ Value.setEntry (.text name) v es, P e.2 := by
    intro name v es hv hes e he
    rcases (Value.mem_setEntry he).2 with heq | ⟨d, hd, heq⟩
    · rw [heq]; exact hv
    · rw [heq]; exact hes d hd
  unfold bind
  cases it.keyName with
  | none => exact ⟨_, rfl, hset hpair.2 hentries⟩
  | some name => exact ⟨_, rfl, hset hpair.1 (hset hpair.2 hentries)⟩

end Iteration

end Stencil
