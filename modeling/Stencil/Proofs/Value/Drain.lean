import Stencil.Proofs.Condition.Ordering
import Stencil.Proofs.Value.Scope

/-! # Data whose streams are empty

The value that is left of another one when some streams have nothing more to yield.

* `Value.drain` empties the streams of some identities, at every depth of a value.
* `Value.resolve_drain`, `Value.pairs_drain` and `Iteration.bind_drain`: what a path finds, what an
  iteration walks and what its names mean is the same, drained.
* `Value.truth_drain`, `Value.scalar?_drain` and `Condition.test?_drain`: nothing that is shown or tested
  tells how much a stream has left to yield. -/

namespace Stencil

namespace Value

/-! ## Emptying streams -/

mutual

/-- A value in which the streams of these identities **yield nothing**. -/
def drain (ids : List Nat) : Value → Value
  | .list items => .list (drainItems ids items)
  | .tuple items => .tuple (drainItems ids items)
  | .map entries => .map (drainEntries ids entries)
  | .object attributes => .object (drainAttributes ids attributes)
  | .stream id items => .stream id (if id ∈ ids then [] else drainItems ids items)
  | v => v
termination_by structural v => v

/-- A row of values, each of them drained. -/
def drainItems (ids : List Nat) : List Value → List Value
  | [] => []
  | v :: vs => drain ids v :: drainItems ids vs
termination_by structural vs => vs

/-- A row of entries, their keys and values drained. -/
def drainEntries (ids : List Nat) : List (Value × Value) → List (Value × Value)
  | [] => []
  | (k, v) :: es => (drain ids k, drain ids v) :: drainEntries ids es
termination_by structural es => es

/-- A row of attributes, their values drained. -/
def drainAttributes (ids : List Nat) : List (String × Value) → List (String × Value)
  | [] => []
  | (name, v) :: as => (name, drain ids v) :: drainAttributes ids as
termination_by structural as => as

end

/-- A pair of key and value, both drained. -/
def drainPair (ids : List Nat) (p : Value × Value) : Value × Value := (p.1.drain ids, p.2.drain ids)

variable (ids : List Nat)

theorem drainItems_eq_map (items : List Value) : drainItems ids items = items.map (drain ids) := by
  induction items with
  | nil => rfl
  | cons v vs ih => rw [drainItems, ih, List.map_cons]

theorem drainEntries_eq_map (entries : List (Value × Value)) :
    drainEntries ids entries = entries.map (drainPair ids) := by
  induction entries with
  | nil => rfl
  | cons e es ih => rw [drainEntries, ih, List.map_cons, drainPair]

theorem drainAttributes_eq_map (attributes : List (String × Value)) :
    drainAttributes ids attributes = attributes.map fun a => (a.1, a.2.drain ids) := by
  induction attributes with
  | nil => rfl
  | cons a as ih => rw [drainAttributes, ih, List.map_cons]

@[simp] theorem drain_list (items : List Value) :
    (Value.list items).drain ids = .list (items.map (drain ids)) := by
  rw [drain, drainItems_eq_map]

@[simp] theorem drain_tuple (items : List Value) :
    (Value.tuple items).drain ids = .tuple (items.map (drain ids)) := by
  rw [drain, drainItems_eq_map]

@[simp] theorem drain_map (entries : List (Value × Value)) :
    (Value.map entries).drain ids = .map (entries.map (drainPair ids)) := by
  rw [drain, drainEntries_eq_map]

@[simp] theorem drain_object (attributes : List (String × Value)) :
    (Value.object attributes).drain ids = .object (attributes.map fun a => (a.1, a.2.drain ids)) := by
  rw [drain, drainAttributes_eq_map]

/-- Draining keeps atoms apart from collections. -/
theorem isAtom_drain (v : Value) : (v.drain ids).isAtom = v.isAtom := by
  cases v <;> rfl

/-- Draining makes no streams. -/
theorem drain_ne_stream {v : Value} (h : ∀ id items, v ≠ .stream id items) :
    ∀ id items, v.drain ids ≠ .stream id items := by
  cases v with
  | stream id items => exact absurd rfl (h id items)
  | _ => exact fun _ _ => nofun

mutual

/-- **Without identities** nothing is drained. -/
theorem drain_nil : ∀ v : Value, v.drain [] = v
  | .list items => by rw [drain, drainItems_nil items]
  | .tuple items => by rw [drain, drainItems_nil items]
  | .map entries => by rw [drain, drainEntries_nil entries]
  | .object attributes => by rw [drain, drainAttributes_nil attributes]
  | .stream id items => by rw [drain, if_neg List.not_mem_nil, drainItems_nil items]
  | .null | .undefined | .bool _ | .int _ | .float _ | .text _ | .bytes _ | .range _ _ _ | .callable _ => rfl
termination_by structural v => v

theorem drainItems_nil : ∀ items : List Value, drainItems [] items = items
  | [] => rfl
  | v :: vs => by rw [drainItems, drain_nil v, drainItems_nil vs]
termination_by structural items => items

theorem drainEntries_nil : ∀ entries : List (Value × Value), drainEntries [] entries = entries
  | [] => rfl
  | (k, v) :: es => by rw [drainEntries, drain_nil k, drain_nil v, drainEntries_nil es]
termination_by structural entries => entries

theorem drainAttributes_nil : ∀ attributes : List (String × Value),
    drainAttributes [] attributes = attributes
  | [] => rfl
  | (name, v) :: as => by rw [drainAttributes, drain_nil v, drainAttributes_nil as]
termination_by structural attributes => attributes

end

/-! ## What is shown -/

/-- **A drained value counts as true** as the value does. -/
theorem truth_drain (v : Value) : (v.drain ids).truth = v.truth := by
  cases v with
  | list items | tuple items | map entries => simp [truth]
  | _ => rfl

/-- **A drained value has the same text**, or none. -/
theorem scalar?_drain (v : Value) : (v.drain ids).scalar? = v.scalar? := by
  cases v <;> rfl

/-! ## Equality and order -/

section Comparison

variable (ids' : List Nat)

/-- Atoms do not tell what a stream yields. -/
theorem atomEqual_drain (v w : Value) : atomEqual (v.drain ids) (w.drain ids') = atomEqual v w := by
  cases v <;> cases w <;> rfl

/-- Draining the items of rows. -/
theorem itemsEqual_drain {xs : List Value}
    (h : ∀ v ∈ xs, ∀ w : Value, equal (v.drain ids) (w.drain ids') = equal v w) (ys : List Value) :
    itemsEqual (xs.map (drain ids)) (ys.map (drain ids')) = itemsEqual xs ys := by
  induction xs generalizing ys with
  | nil => cases ys <;> rfl
  | cons x xs ih =>
      cases ys with
      | nil => rfl
      | cons y ys =>
          rw [List.map_cons, List.map_cons, itemsEqual, itemsEqual, h x List.mem_cons_self,
            ih fun v hv => h v (List.mem_cons_of_mem x hv)]

/-- Draining entries. -/
theorem entriesWithin_drain {es : List (Value × Value)}
    (h : ∀ e ∈ es, (∀ w : Value, equal (e.1.drain ids) (w.drain ids') = equal e.1 w) ∧
      ∀ w : Value, equal (e.2.drain ids) (w.drain ids') = equal e.2 w) (fs : List (Value × Value)) :
    entriesWithin (es.map (drainPair ids)) (fs.map (drainPair ids')) = entriesWithin es fs := by
  induction es with
  | nil => rfl
  | cons e es ih =>
      obtain ⟨hkey, hvalue⟩ := h e List.mem_cons_self
      rw [List.map_cons, entriesWithin, drainPair, entriesWithin, List.any_map,
        ih fun d hd => h d (List.mem_cons_of_mem e hd)]
      simp only [Function.comp_def, drainPair, hkey, hvalue]

/-- Draining attributes. -/
theorem attributesWithin_drain {as : List (String × Value)}
    (h : ∀ a ∈ as, ∀ w : Value, equal (a.2.drain ids) (w.drain ids') = equal a.2 w)
    (bs : List (String × Value)) :
    attributesWithin (as.map fun a => (a.1, a.2.drain ids)) (bs.map fun b => (b.1, b.2.drain ids')) =
      attributesWithin as bs := by
  induction as with
  | nil => rfl
  | cons a as ih =>
      rw [List.map_cons, attributesWithin, attributesWithin, List.any_map,
        ih fun d hd => h d (List.mem_cons_of_mem a hd)]
      simp only [Function.comp_def, h a List.mem_cons_self]

/-- **Drained values are equal** iff the values are: a stream is equal to its own occurrence. -/
theorem equal_drain (v w : Value) : equal (v.drain ids) (w.drain ids') = equal v w := by
  -- both sides are drained apart, so that one of them can be a value that is written out
  induction v using Value.induction generalizing w with
  | atom v hv =>
      rw [equal_of_isAtom hv, equal_of_isAtom ((isAtom_drain ids v).trans hv), atomEqual_drain]
  | list items ih =>
      cases w with
      | list ys => simpa only [drain_list, equal] using itemsEqual_drain ids ids' ih ys
      | _ => rfl
  | tuple items ih =>
      cases w with
      | tuple ys => simpa only [drain_tuple, equal] using itemsEqual_drain ids ids' ih ys
      | _ => rfl
  | map entries ih =>
      cases w with
      | map fs =>
          simp only [drain_map, equal, List.length_map]
          rw [entriesWithin_drain ids ids' ih fs]
      | _ => rfl
  | object attributes ih =>
      cases w with
      | object bs =>
          simp only [drain_object, equal, List.length_map]
          rw [attributesWithin_drain ids ids' ih bs]
      | _ => rfl

/-- Drained values are strictly equal iff the values are. -/
theorem strictEqual_drain (v w : Value) : strictEqual (v.drain ids) (w.drain ids') = strictEqual v w := by
  have hequal := equal_drain ids ids' v w
  cases v with
  | bool p => cases w <;> rfl
  | _ =>
      cases w with
      | bool q => rfl
      | _ => exact hequal

/-- Atoms do not tell what a stream yields when they are put in order. -/
theorem atomCompare_drain (v w : Value) : atomCompare (v.drain ids) (w.drain ids') = atomCompare v w := by
  cases v <;> cases w <;> rfl

/-- Draining the items of rows that are put in order. -/
theorem itemsCompare_drain {xs : List Value}
    (h : ∀ v ∈ xs, ∀ w : Value, compare (v.drain ids) (w.drain ids') = compare v w) (ys : List Value) :
    itemsCompare (xs.map (drain ids)) (ys.map (drain ids')) = itemsCompare xs ys := by
  induction xs generalizing ys with
  | nil => cases ys <;> rfl
  | cons x xs ih =>
      cases ys with
      | nil => rfl
      | cons y ys =>
          rw [List.map_cons, List.map_cons, itemsCompare, itemsCompare, equal_drain,
            h x List.mem_cons_self, ih fun v hv => h v (List.mem_cons_of_mem x hv)]

/-- **Drained values stand to each other** as the values do. -/
theorem compare_drain (v w : Value) : compare (v.drain ids) (w.drain ids') = compare v w := by
  induction v using Value.induction generalizing w with
  | list items ih =>
      cases w with
      | list ys => simpa only [drain_list, compare] using itemsCompare_drain ids ids' ih ys
      | _ => rfl
  | tuple items ih =>
      cases w with
      | tuple ys => simpa only [drain_tuple, compare] using itemsCompare_drain ids ids' ih ys
      | _ => rfl
  | atom v hv =>
      rw [compare_of_isAtom hv, compare_of_isAtom ((isAtom_drain ids v).trans hv), atomCompare_drain]
  | map entries => cases w <;> rfl
  | object attributes => cases w <;> rfl

/-- A text is read as a value without streams. -/
theorem drain_of_numeric {s : String} {v : Value} (h : numeric s = .ok v) : v.drain ids = v := by
  obtain ⟨n, -, hn⟩ := bind_eq_ok_iff.mp h
  cases n with
  | none => cases hn; rfl
  | some n => cases hn; cases n <;> rfl

/-- The sides of an ordering are drained before they are brought to numbers, or after. -/
theorem coerce_drain (l r : Value) : (l.drain ids).coerce (r.drain ids') =
    (fun p => (p.1.drain ids, p.2.drain ids')) <$> l.coerce r := by
  have hnumber : ∀ (is : List Nat) (v : Value), (v.drain is).isNumber = v.isNumber := fun is v => by
    cases v <;> rfl
  have htext : ∀ (is : List Nat) (v : Value), (v.drain is).isText = v.isText := fun is v => by
    cases v <;> rfl
  cases hr : r.isText with
  | true =>
      obtain ⟨s, rfl⟩ := exists_of_isText hr
      show (l.drain ids).coerce (.text s) = _
      rw [coerce_text, coerce_text, hnumber]
      split
      · cases hs : numeric s with
        | error e => rfl
        | ok v => simp [drain_of_numeric ids' hs]
      · rfl
  | false =>
      cases hl : l.isText with
      | true =>
          obtain ⟨s, rfl⟩ := exists_of_isText hl
          show coerce (.text s) (r.drain ids') = _
          rw [text_coerce s hr, text_coerce s ((htext ids' r).trans hr), hnumber]
          split
          · cases hs : numeric s with
            | error e => rfl
            | ok v => simp [drain_of_numeric ids hs]
          · rfl
      | false =>
          rw [coerce_of_isText_eq_false hl hr,
            coerce_of_isText_eq_false ((htext ids l).trans hl) ((htext ids' r).trans hr)]
          rfl

end Comparison

end Value

section Comparison

variable (ids ids' : List Nat)

/-- Drained values stand in the same order. -/
theorem Operator.order_drain (op : Operator) (hop : op ≠ .different) (l r : Value) :
    Verdict.holds <$> op.order (l.drain ids) (r.drain ids') = Verdict.holds <$> op.order l r := by
  rw [holds_order hop, holds_order hop, Value.coerce_drain]
  cases l.coerce r with
  | error e => rfl
  | ok p => exact congrArg (Except.ok ∘ op.admits) (Value.compare_drain ids ids' p.1 p.2)

/-- **Drained values compare** as the values do. -/
theorem Operator.apply_drain (op : Operator) (l r : Value) :
    Verdict.holds <$> op.apply (l.drain ids) (r.drain ids') = Verdict.holds <$> op.apply l r := by
  have hequal := Value.strictEqual_drain ids ids' l r
  cases op with
  | same => exact congrArg Except.ok hequal
  | different => exact congrArg (Except.ok ∘ Bool.not) hequal
  | less => exact order_drain ids ids' .less nofun l r
  | greater => exact order_drain ids ids' .greater nofun l r
  | atMost => exact order_drain ids ids' .atMost nofun l r
  | atLeast => exact order_drain ids ids' .atLeast nofun l r

end Comparison

/-! ## What a path finds -/

namespace Value

variable (ids : List Nat)

/-- What is missing is undefined in drained values, too. -/
theorem getD_drain (x : Option Value) :
    (x.map (drain ids)).getD .undefined = (x.getD .undefined).drain ids := by
  cases x <;> rfl

/-- The key of a path finds drained values in a drained mapping. -/
theorem lookup?_drain (key : Key) (entries : List (Value × Value)) :
    lookup? key.value (entries.map (drainPair ids)) = (lookup? key.value entries).map (drain ids) := by
  have hkey : key.value.drain [] = key.value := drain_nil _
  induction entries with
  | nil => rfl
  | cons e es ih =>
      obtain ⟨k, v⟩ := e
      have hequal : equal key.value (k.drain ids) = equal key.value k := by
        rw [← hkey, equal_drain]
        exact congrArg (equal · k) hkey.symm
      rw [List.map_cons, drainPair, lookup?_cons, lookup?_cons, hequal, ih]
      split <;> rfl

/-- A key finds drained values in a drained mapping. -/
theorem entry_drain (entries : List (Value × Value)) (key : Key) :
    entry (entries.map (drainPair ids)) key = drain ids <$> entry entries key := by
  unfold entry
  rw [lookup?_drain]
  cases lookup? key.value entries with
  | some v => rfl
  | none =>
      -- the other spelling is the value of a key, too
      cases hother : key.other? with
      | error l => rfl
      | ok other =>
          cases other with
          | none => rfl
          | some k =>
              obtain ⟨other, rfl⟩ := Key.exists_of_other? hother
              show Except.ok ((lookup? other.value (entries.map (drainPair ids))).getD .undefined) = _
              rw [lookup?_drain, getD_drain]
              rfl

/-- The items of a drained sequence. -/
theorem item?_drain (v : Value) (i : Nat) : (v.drain ids).item? i = (v.item? i).map (drain ids) := by
  cases v with
  | list items => simp [item?]
  | tuple items => simp [item?]
  | text s =>
      show s.toList[i]?.map _ = (s.toList[i]?.map _).map _
      rw [Option.map_map]
      rfl
  | bytes bs =>
      show bs[i]?.map _ = (bs[i]?.map _).map _
      rw [Option.map_map]
      rfl
  | range start stop step =>
      show (if i < rangeLength start stop step then _ else _) = Option.map _ (if _ then _ else _)
      split <;> rfl
  | _ => rfl

/-- A key finds drained values in a drained sequence. -/
theorem element_drain (v : Value) (key : Key) :
    (v.drain ids).element key = drain ids <$> v.element key := by
  have hfits : (v.drain ids).lengthFits = v.lengthFits := by cases v <;> rfl
  unfold element
  cases key.position? with
  | error l => rfl
  | ok position =>
      cases position with
      | none => rfl
      | some i =>
          dsimp only [ok_bind]
          rw [hfits, item?_drain, getD_drain]
          split
          · rfl
          · split <;> rfl

/-- The attributes of a drained value. Those of a stream do not tell what it yields. -/
theorem attribute?_drain (v : Value) (name : String) :
    (v.drain ids).attribute? name = (v.attribute? name).map (drain ids) := by
  have hinteger : ∀ (n : Int) (kind : String) (method : String → Callable),
      (integerAttribute? n kind method name).map (drain ids) = integerAttribute? n kind method name := by
    intro n kind method
    unfold integerAttribute?
    repeat' split
    all_goals rfl
  cases v with
  | object attributes =>
      rw [drain_object]
      show ((attributes.map fun a => (a.1, a.2.drain ids)).find? fun a => a.1 == name).map (·.2) =
        ((attributes.find? fun a => a.1 == name).map (·.2)).map (drain ids)
      rw [List.find?_map, Option.map_map, Option.map_map]
      rfl
  | int n => exact (hinteger _ _ _).symm
  | bool b => exact (hinteger _ _ _).symm
  | float x =>
      show attribute? (.float x) name = _
      unfold attribute?
      dsimp only
      repeat' split
      all_goals rfl
  | stream id items =>
      show (if _ then _ else _) = Option.map _ (if _ then _ else _)
      repeat' split
      all_goals rfl
  | _ => rfl

/-- **One step of a path** from a drained value. -/
theorem step_drain (v : Value) (key : Key) : (v.drain ids).step key = drain ids <$> v.step key := by
  have hattribute : ∀ s : String,
      Except.ok (if s.startsWith "_" then .undefined else ((v.drain ids).attribute? s).getD .undefined) =
        drain ids <$> (Except.ok (if s.startsWith "_" then .undefined
          else (v.attribute? s).getD .undefined) : Except Limit Value) := by
    intro s
    rw [attribute?_drain, getD_drain]
    split <;> rfl
  cases v with
  | null | undefined => rfl
  | map entries =>
      rw [drain_map]
      exact entry_drain ids entries key
  | list items => exact element_drain ids (.list items) key
  | tuple items => exact element_drain ids (.tuple items) key
  | text s => exact element_drain ids (.text s) key
  | bytes bs => exact element_drain ids (.bytes bs) key
  | range start stop step => exact element_drain ids (.range start stop step) key
  | _ =>
      cases key with
      | index n => rfl
      | name s => exact hattribute s

/-- Following keys from a drained value. -/
theorem follow_drain (v : Value) (keys : List Key) :
    (v.drain ids).follow keys = drain ids <$> v.follow keys := by
  induction keys generalizing v with
  | nil => rfl
  | cons key keys ih =>
      rw [follow, follow, step_drain]
      cases v.step key with
      | error l => rfl
      | ok w => exact ih w

/-- **A path finds** in a drained value what it finds in the value, drained. -/
theorem resolve_drain (v : Value) (path : Path) :
    (v.drain ids).resolve path = drain ids <$> v.resolve path := follow_drain ids v path.keys

/-! ## What an iteration walks -/

/-- A row of drained values with their positions. -/
theorem enumerate_drain (items : List Value) :
    enumerate (items.map (drain ids)) = (enumerate items).map (drainPair ids) := by
  refine List.ext_getElem? fun i => ?_
  simp only [enumerate, List.getElem?_mapIdx, List.getElem?_map, Option.map_map]
  rfl

/-- **The pairs of a drained value** are those of the value, drained; only a stream may have none left. -/
theorem pairs_drain {v : Value} (h : ∀ id items, v ≠ .stream id items) :
    (v.drain ids).pairs = v.pairs.map (drainPair ids) := by
  -- characters, bytes and integers are as they are
  have hmap : ∀ {α : Type} (l : List α) (f : α → Value), drain ids ∘ f = f →
      enumerate (l.map f) = (enumerate (l.map f)).map (drainPair ids) := by
    intro α l f hf
    rw [← enumerate_drain, List.map_map, hf]
  cases v with
  | stream id items => exact absurd rfl (h id items)
  | map entries => rw [drain_map]; rfl
  | list items => rw [drain_list]; exact enumerate_drain ids items
  | tuple items => rw [drain_tuple]; exact enumerate_drain ids items
  | text s => exact hmap _ _ rfl
  | bytes bs => exact hmap _ _ rfl
  | range start stop step => exact hmap _ _ rfl
  | _ => rfl

/-- Setting the value of a name, drained. -/
theorem setEntry_drain (name : String) (v : Value) (entries : List (Value × Value)) :
    setEntry (.text name) (v.drain ids) (entries.map (drainPair ids)) =
      (setEntry (.text name) v entries).map (drainPair ids) := by
  induction entries with
  | nil => rfl
  | cons e es ih =>
      obtain ⟨k, w⟩ := e
      have hequal : equal (.text name) (k.drain ids) = equal (.text name) k :=
        equal_drain [] ids (.text name) k
      rw [List.map_cons, drainPair, setEntry, setEntry, hequal]
      split
      · rfl
      · rw [List.map_cons, ih, drainPair]

/-- Binding a name in a scope, drained. -/
theorem bind_drain (scope : Value) (name : String) (v : Value) :
    (scope.drain ids).bind name (v.drain ids) = (scope.bind name v).drain ids := by
  cases scope with
  | map entries =>
      rw [drain_map]
      show Value.map (setEntry _ _ _) = (Value.map (setEntry _ _ _)).drain ids
      rw [setEntry_drain, drain_map]
  | _ => rfl

end Value

/-- **The scope of a round**, drained. -/
theorem Iteration.bind_drain (ids : List Nat) (it : Iteration) (scope : Value) (pair : Value × Value) :
    it.bind (scope.drain ids) (Value.drainPair ids pair) = (it.bind scope pair).drain ids := by
  unfold Iteration.bind Value.drainPair
  rw [Value.bind_drain]
  cases it.keyName with
  | none => rfl
  | some name => exact Value.bind_drain ids _ name pair.1

/-! ## What is tested -/

namespace Condition

variable (ids : List Nat) (scope : Value)

/-- The left side of a condition in a drained scope. -/
theorem left_drain (c : Condition) : c.left (scope.drain ids) = Value.drain ids <$> c.left scope := by
  unfold left
  rw [Value.resolve_drain]
  cases scope.resolve c.path with
  | error l => rfl
  | ok v =>
      show Except.ok (if c.negated then Value.bool !(v.drain ids).truth else v.drain ids) = _
      rw [Value.truth_drain]
      show _ = Except.ok ((if c.negated then Value.bool !v.truth else v).drain ids)
      split <;> rfl

/-- **A condition comes to the same** in a drained scope. -/
theorem test?_drain (c : Condition) :
    Verdict.holds <$> c.test? (scope.drain ids) = Verdict.holds <$> c.test? scope := by
  unfold test?
  rw [left_drain]
  cases c.left scope with
  | error l => rfl
  | ok l =>
      cases c.test with
      | truthy => exact congrArg Except.ok (Value.truth_drain ids l)
      | compare op operand =>
          cases operand with
          | literal r =>
              -- what is written out is not drained
              have happly := op.apply_drain ids [] l r
              rw [Value.drain_nil] at happly
              exact happly
          | path p =>
              show Verdict.holds <$> ((scope.drain ids).resolve p >>= fun r => op.apply (l.drain ids) r) =
                Verdict.holds <$> (scope.resolve p >>= fun r => op.apply l r)
              rw [Value.resolve_drain]
              cases scope.resolve p with
              | error e => rfl
              | ok r => exact op.apply_drain ids ids l r

end Condition

end Stencil
