import Stencil.Proofs.Result
import Stencil.Yaml.Node

/-! # Where the faults of a document's nodes come from

Reading the nodes of a document fails only for a document that is malformed, or with the fault that the
tokens end with.

* `Yaml.Node.Keeps` is what all parts of reading have: they fail so, and they keep the fault that is
  behind the tokens. `Keeps.bind` puts them in a row.
* `Yaml.Node.KeepsAt` is the same for all readers of nodes with some fuel; `keepsAt` is the induction.
* `Yaml.Node.fault_of_ofTokens?` is the result for the root of a document. -/

namespace Stencil.Yaml.Node

variable {α β : Type}

/-- Whether reading **fails for a known reason** only: the document is malformed, or the fault behind the
tokens is met; and it keeps this fault. -/
structure Keeps (x : Read α) : Prop where
  /-- What is wrong behind the tokens stays as it is. -/
  ok : ∀ {s t : State} {v : α}, x.run s = .ok (v, t) → t.fault = s.fault
  /-- A fault is that, or the document is malformed. -/
  error : ∀ {s : State} {f : Fault}, x.run s = .error f → f = .malformed ∨ f = s.fault

/-- Returning keeps the fault. -/
theorem keeps_pure (v : α) : Keeps (pure v : Read α) where
  ok h := by cases h; rfl
  error h := by cases h

/-- A malformed document is a known reason. -/
theorem keeps_malformed : Keeps (throw .malformed : Read α) where
  ok h := by cases h
  error h := by cases h; exact Or.inl rfl

/-- Looking at the state keeps the fault. -/
theorem keeps_get : Keeps (get : Read State) where
  ok h := by cases h; rfl
  error h := by cases h

/-- Changing the state keeps the fault, if the change does. -/
theorem keeps_modify {f : State → State} (hf : ∀ s, (f s).fault = s.fault) :
    Keeps (modify f : Read Unit) where
  ok h := by cases h; exact hf _
  error h := by cases h

/-- **Reading in a row** keeps the fault if its parts do. -/
theorem Keeps.bind {x : Read α} {f : α → Read β} (hx : Keeps x) (hf : ∀ v, Keeps (f v)) :
    Keeps (x >>= f) where
  ok h := by
    rw [StateT.run_bind] at h
    obtain ⟨⟨v, t⟩, hv, hw⟩ := bind_eq_ok_iff.mp h
    exact ((hf v).ok hw).trans (hx.ok hv)
  error h := by
    rw [StateT.run_bind] at h
    rcases bind_eq_error_iff.mp h with h | ⟨⟨v, t⟩, hv, hw⟩
    · exact hx.error h
    · rw [← hx.ok hv]
      exact (hf v).error hw

/-- Changing the handles keeps the fault. -/
theorem keeps_handles (handles : State → List (List Char × List Char)) :
    Keeps (modify fun s => { s with handles := handles s }) := keeps_modify fun _ => rfl

/-- A choice between two readers keeps the fault if both do. -/
theorem keeps_ite {p : Prop} [Decidable p] {x y : Read α} (hx : Keeps x) (hy : Keeps y) :
    Keeps (if p then x else y) := by
  split
  · exact hx
  · exact hy

/-- Looking at the next token keeps the fault: where there is none, the fault is met. -/
theorem keeps_peek : Keeps peek where
  ok {s t v} h := by
    rw [peek, StateT.run_bind] at h
    obtain ⟨⟨u, r⟩, hu, h⟩ := bind_eq_ok_iff.mp h
    cases hu
    dsimp only at h
    split at h
    · cases h
      rfl
    · cases h
  error {s f} h := by
    rw [peek, StateT.run_bind] at h
    rcases bind_eq_error_iff.mp h with h | ⟨⟨u, r⟩, hu, h⟩
    · cases h
    · cases hu
      dsimp only at h
      split at h
      · cases h
      · cases h
        exact Or.inr rfl

/-! ## Tokens and properties -/

theorem keeps_advance : Keeps advance := keeps_modify fun _ => rfl

theorem keeps_expect (t : Token) : Keeps (expect t) := by
  refine keeps_peek.bind fun u => ?_
  split
  · exact keeps_advance
  · exact keeps_malformed

theorem keeps_ahead (ts : List Token) : Keeps (ahead ts) := keeps_peek.bind fun _ => keeps_pure _

theorem keeps_fullTag (t : TagText) : Keeps (fullTag t) := by
  unfold fullTag
  split
  · exact keeps_pure _
  · refine keeps_get.bind fun s => ?_
    split
    · exact keeps_pure _
    · exact keeps_malformed

theorem keeps_anchorAhead : Keeps anchorAhead := by
  refine keeps_peek.bind fun t => ?_
  split
  · exact keeps_advance.bind fun _ => keeps_pure _
  · exact keeps_pure _

theorem keeps_tagAhead : Keeps tagAhead := by
  refine keeps_peek.bind fun t => ?_
  split
  · exact keeps_advance.bind fun _ => keeps_pure _
  · exact keeps_pure _

/-- The end of reading properties: the tag in full, if there is one. -/
theorem keeps_tagged (anchor : Option (List Char)) (tag : Option TagText) : Keeps (match tag with
    | some t => do return ⟨anchor, some (← fullTag t)⟩
    | none => return ⟨anchor, none⟩ : Read Properties) := by
  split
  · exact (keeps_fullTag _).bind fun _ => keeps_pure _
  · exact keeps_pure _

theorem keeps_properties : Keeps properties := by
  refine keeps_anchorAhead.bind fun before => ?_
  refine keeps_tagAhead.bind fun tag => ?_
  have hlast (anchor : Option (List Char)) := keeps_tagged anchor tag
  exact keeps_ite (keeps_anchorAhead.bind hlast) ((keeps_pure before).bind hlast)

theorem keeps_remember (anchor : Option (List Char)) (n : Node) : Keeps (remember anchor n) := by
  unfold remember
  split
  · exact keeps_modify fun _ => rfl
  · exact keeps_pure _

theorem keeps_checkNew (anchor : Option (List Char)) : Keeps (checkNew anchor) := by
  unfold checkNew
  split
  · exact keeps_get.bind fun s => keeps_ite keeps_malformed (keeps_pure ())
  · exact keeps_pure _

theorem keeps_close (anchor : List Char) (n : Node) : Keeps (close anchor n) := by
  refine Keeps.bind ?_ fun _ => keeps_pure _
  exact keeps_modify fun _ => rfl

theorem keeps_collection {p : Properties} {isMapping : Bool} {read : Read Node} (h : Keeps read) :
    Keeps (collection p isMapping read) := by
  refine (keeps_checkNew _).bind fun _ => ?_
  split
  · exact h
  · exact (keeps_remember _ _).bind fun _ => h.bind fun n => keeps_close _ n

/-- A comma that is wanted unless it is the first item. -/
theorem keeps_separated {first : Bool} {next : Unit → Read α} (h : ∀ u, Keeps (next u)) :
    Keeps (if (!first) = true then expect .flowEntry >>= next else next ()) :=
  keeps_ite ((keeps_expect _).bind h) (h ())

/-! ## Nodes -/

/-- Whether all readers of nodes **keep the fault** with some fuel. -/
structure KeepsAt (fuel : Nat) : Prop where
  read : ∀ block flat, Keeps (read block flat fuel)
  readUnless : ∀ stops block flat, Keeps (readUnless stops block flat fuel)
  blockItems : Keeps (blockItems fuel)
  flatItems : Keeps (flatItems fuel)
  blockEntries : Keeps (blockEntries fuel)
  valueAfterColon : ∀ stops block, Keeps (valueAfterColon stops block fuel)
  flowItems : ∀ first, Keeps (flowItems first fuel)
  flowEntries : ∀ first, Keeps (flowEntries first fuel)

namespace KeepsAt

variable {fuel : Nat}

/-- Reading a node. -/
theorem read_succ (h : KeepsAt fuel) (block flat : Bool) : Keeps (Node.read block flat (fuel + 1)) := by
  rw [Node.read]
  refine keeps_peek.bind fun t => ?_
  split
  · refine keeps_advance.bind fun _ => keeps_get.bind fun s => ?_
    split
    · exact keeps_pure _
    · exact keeps_malformed
  · refine keeps_properties.bind fun p => ?_
    have hsequence {r : Read (List Node)} (hr : Keeps r) : Keeps (collection p false do
        return .sequence (p.collectionTag .sequence) (← r)) :=
      keeps_collection (hr.bind fun _ => keeps_pure _)
    have hmapping {r : Read (List (Node × Node))} (hr : Keeps r) : Keeps (collection p true do
        return .mapping (p.collectionTag .mapping) (← r)) :=
      keeps_collection (hr.bind fun _ => keeps_pure _)
    refine keeps_peek.bind fun u => ?_
    split
    · exact hsequence h.flatItems
    · refine (keeps_checkNew _).bind fun _ => keeps_advance.bind fun _ => ?_
      exact (keeps_remember _ _).bind fun _ => keeps_pure _
    · exact keeps_advance.bind fun _ => hsequence (h.flowItems true)
    · exact keeps_advance.bind fun _ => hmapping (h.flowEntries true)
    · exact keeps_advance.bind fun _ => hsequence h.blockItems
    · exact keeps_advance.bind fun _ => hmapping h.blockEntries
    · -- a node that is not written
      have hempty : ∀ _ : Unit, Keeps (do
          checkNew p.anchor
          let n := .scalar (p.scalarTag ⟨{}, p.untagged⟩) {}
          remember p.anchor n
          return n) := fun _ =>
        (keeps_checkNew _).bind fun _ => (keeps_remember _ _).bind fun _ => keeps_pure _
      exact keeps_ite (keeps_malformed.bind hempty) (hempty ())

/-- Reading a node, if there is one. -/
theorem readUnless_succ (h : KeepsAt fuel) (stops : List Token) (block flat : Bool) :
    Keeps (Node.readUnless stops block flat (fuel + 1)) := by
  rw [Node.readUnless]
  exact (keeps_ahead _).bind fun _ => keeps_ite (keeps_pure _) (h.read block flat)

/-- Reading the items of an indented sequence. -/
theorem blockItems_succ (h : KeepsAt fuel) : Keeps (Node.blockItems (fuel + 1)) := by
  rw [Node.blockItems]
  refine (keeps_ahead _).bind fun _ => keeps_ite ?_ ?_
  · refine keeps_advance.bind fun _ => (h.readUnless _ _ _).bind fun n => ?_
    exact h.blockItems.bind fun _ => keeps_pure _
  · exact (keeps_expect _).bind fun _ => keeps_pure _

/-- Reading the items of a sequence without indentation. -/
theorem flatItems_succ (h : KeepsAt fuel) : Keeps (Node.flatItems (fuel + 1)) := by
  rw [Node.flatItems]
  refine (keeps_ahead _).bind fun _ => keeps_ite ?_ (keeps_pure _)
  refine keeps_advance.bind fun _ => (h.readUnless _ _ _).bind fun n => ?_
  exact h.flatItems.bind fun _ => keeps_pure _

/-- Reading the entries of an indented mapping. -/
theorem blockEntries_succ (h : KeepsAt fuel) : Keeps (Node.blockEntries (fuel + 1)) := by
  rw [Node.blockEntries]
  refine (keeps_ahead _).bind fun _ => keeps_ite ?_ ?_
  · refine keeps_advance.bind fun _ => (h.readUnless _ _ _).bind fun k => ?_
    refine (h.valueAfterColon _ _).bind fun v => ?_
    exact h.blockEntries.bind fun _ => keeps_pure _
  · refine (keeps_ahead _).bind fun _ => keeps_ite ?_ keeps_malformed
    exact keeps_advance.bind fun _ => keeps_pure _

/-- Reading the value of an entry. -/
theorem valueAfterColon_succ (h : KeepsAt fuel) (stops : List Token) (block : Bool) :
    Keeps (Node.valueAfterColon stops block (fuel + 1)) := by
  rw [Node.valueAfterColon]
  refine (keeps_ahead _).bind fun _ => keeps_ite ?_ (keeps_pure _)
  exact keeps_advance.bind fun _ => h.readUnless _ _ _

/-- Reading the items of a flow sequence. -/
theorem flowItems_succ (h : KeepsAt fuel) (first : Bool) :
    Keeps (Node.flowItems first (fuel + 1)) := by
  rw [Node.flowItems]
  have hend : Keeps (do advance; return ([] : List Node)) := keeps_advance.bind fun _ => keeps_pure _
  refine (keeps_ahead _).bind fun _ => keeps_ite hend ?_
  refine keeps_separated fun _ => ?_
  refine (keeps_ahead _).bind fun _ => keeps_ite ?_ ?_
  · refine keeps_advance.bind fun _ => (h.readUnless _ _ _).bind fun k => ?_
    refine (h.valueAfterColon _ _).bind fun v => ?_
    exact (h.flowItems false).bind fun _ => keeps_pure _
  · refine (keeps_ahead _).bind fun _ => keeps_ite hend ?_
    refine (h.read _ _).bind fun n => ?_
    exact (h.flowItems false).bind fun _ => keeps_pure _

/-- Reading the entries of a flow mapping. -/
theorem flowEntries_succ (h : KeepsAt fuel) (first : Bool) :
    Keeps (Node.flowEntries first (fuel + 1)) := by
  rw [Node.flowEntries]
  have hend : Keeps (do advance; return ([] : List (Node × Node))) :=
    keeps_advance.bind fun _ => keeps_pure _
  refine (keeps_ahead _).bind fun _ => keeps_ite hend ?_
  refine keeps_separated fun _ => ?_
  refine (keeps_ahead _).bind fun _ => keeps_ite ?_ ?_
  · refine keeps_advance.bind fun _ => (h.readUnless _ _ _).bind fun k => ?_
    refine (h.valueAfterColon _ _).bind fun v => ?_
    exact (h.flowEntries false).bind fun _ => keeps_pure _
  · refine (keeps_ahead _).bind fun _ => keeps_ite hend ?_
    refine (h.read _ _).bind fun n => ?_
    exact (h.flowEntries false).bind fun _ => keeps_pure _

end KeepsAt

/-- **All readers of nodes keep the fault**, by induction on the fuel. -/
theorem keepsAt (fuel : Nat) : KeepsAt fuel := by
  induction fuel with
  | zero =>
      constructor
      all_goals
        intros
        simp only [read, readUnless, blockItems, flatItems, blockEntries, valueAfterColon, flowItems,
          flowEntries]
        exact keeps_malformed
  | succ fuel ih =>
      exact ⟨ih.read_succ, ih.readUnless_succ, ih.blockItems_succ, ih.flatItems_succ,
        ih.blockEntries_succ, ih.valueAfterColon_succ, ih.flowItems_succ, ih.flowEntries_succ⟩

/-! ## Documents -/

theorem keeps_directives (fuel : Nat) (versioned : Bool) : Keeps (directives fuel versioned) := by
  induction fuel generalizing versioned with
  | zero => exact keeps_malformed
  | succ fuel ih =>
      rw [directives]
      refine keeps_peek.bind fun t => ?_
      split
      · refine keeps_ite (keeps_malformed.bind fun _ => ?_) ?_
        · exact keeps_advance.bind fun _ => ih true
        · exact keeps_advance.bind fun _ => ih true
      · refine keeps_get.bind fun s => keeps_ite (keeps_malformed.bind fun _ => ?_) ?_
        · exact keeps_advance.bind fun _ => (keeps_handles _).bind fun _ => ih versioned
        · exact keeps_advance.bind fun _ => (keeps_handles _).bind fun _ => ih versioned
      · exact keeps_advance.bind fun _ => ih versioned
      · exact keeps_pure _

theorem keeps_documentEnds (fuel : Nat) : Keeps (documentEnds fuel) := by
  induction fuel with
  | zero => exact keeps_malformed
  | succ fuel ih =>
      rw [documentEnds]
      refine (keeps_ahead _).bind fun _ => keeps_ite ?_ (keeps_pure _)
      exact keeps_advance.bind fun _ => ih

/-- What follows the root of a document. -/
theorem keeps_rest (fuel : Nat) (root : Node) : Keeps (do
    documentEnds fuel
    expect .streamEnd
    return some root) :=
  (keeps_documentEnds fuel).bind fun _ => (keeps_expect _).bind fun _ => keeps_pure _

/-- A document with a marker at its beginning. -/
theorem keeps_marked (fuel : Nat) : Keeps (do
    directives fuel false
    expect .documentStart
    modify fun s => { s with handles := s.handles ++ defaultHandles }
    let root ← match ← peek with
      | .directive _ | .documentStart | .documentEnd | .streamEnd => pure empty
      | _ => read true false fuel
    documentEnds fuel
    expect .streamEnd
    return some root) := by
  refine (keeps_directives fuel false).bind fun _ => (keeps_expect _).bind fun _ => ?_
  refine (keeps_handles _).bind fun _ => keeps_peek.bind fun t => ?_
  split
  all_goals first
    | exact (keeps_pure _).bind (keeps_rest fuel)
    | exact ((keepsAt fuel).read _ _).bind (keeps_rest fuel)

theorem keeps_document (fuel : Nat) : Keeps (document fuel) := by
  refine keeps_peek.bind fun t => ?_
  split
  · exact keeps_pure _
  · exact keeps_marked fuel
  · exact keeps_marked fuel
  · refine (keeps_handles fun _ => defaultHandles).bind fun _ => ?_
    exact ((keepsAt fuel).read _ _).bind (keeps_rest fuel)

/-- **What reading the root of a document fails with**: the document is malformed, or it is what the tokens
end with. -/
theorem fault_of_ofTokens? {tokens : Tokens} {f : Fault} (h : ofTokens? tokens = .error f) :
    f = .malformed ∨ f = tokens.fault :=
  (keeps_document _).error (map_eq_error_iff.mp h)

end Stencil.Yaml.Node
