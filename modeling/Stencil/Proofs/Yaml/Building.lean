import Mathlib.Data.List.Basic
import Stencil.Yaml.Datum

/-! # Where the faults of a document's data come from

Building the data of a node fails where the node is malformed, or where a scalar is refused under a tag.

* `Yaml.Built.Blames cs b`: every fault of `b` is of this kind, with a scalar among `cs`.
* `Yaml.Node.blames_build`: what a node gives blames the scalars inside the node. -/

namespace Stencil.Yaml

mutual

/-- The scalars **inside a node**, its own one included. -/
def Node.contents : Node → List Content
  | .scalar _ c => [c]
  | .sequence _ items => Node.contentsAll items
  | .mapping _ entries => Node.contentsEntries entries
  | .enclosing _ _ => []
termination_by structural n => n

/-- The scalars inside nodes. -/
def Node.contentsAll : List Node → List Content
  | [] => []
  | n :: ns => n.contents ++ Node.contentsAll ns
termination_by structural ns => ns

/-- The scalars inside entries. -/
def Node.contentsEntries : List (Node × Node) → List Content
  | [] => []
  | (k, v) :: es => k.contents ++ v.contents ++ Node.contentsEntries es
termination_by structural es => es

end

variable {cs ds : List Content} {level : Nat}

/-! ## Blame -/

/-- Whether a fault is **blamed** on scalars: it is a malformed document, or one of the scalars is refused
under some tag. -/
def Fault.BlamedOn (f : Fault) (cs : List Content) : Prop :=
  f = .malformed ∨ ∃ c ∈ cs, ∃ tag, Built.atom tag c = .error f

theorem Fault.BlamedOn.mono {f : Fault} (h : f.BlamedOn cs) (hsub : cs ⊆ ds) : f.BlamedOn ds := by
  rcases h with h | ⟨c, hc, htag⟩
  · exact Or.inl h
  · exact Or.inr ⟨c, hsub hc, htag⟩

/-- The tags under which a scalar can be **refused** for its text: those of truth values, of numbers and of
points in time. -/
def Tag.refusing : List Tag := [.bool, .int, .float, .timestamp]

/-- Under other tags a scalar is taken, or the document is malformed. -/
theorem Built.tag_of_atom {tag : Tag} {c : Content} {e : ConstructionError}
    (h : atom tag c = .error (.construction e)) : tag ∈ Tag.refusing := by
  unfold atom at h
  dsimp only at h
  split at h
  case h_7 =>
    -- bytes that cannot be read are malformed
    split at h <;> cases h
  all_goals first
    | cases h
    | simp [Tag.refusing]

/-- Whether all faults of what a node gives are blamed on scalars. -/
def Built.Blames (cs : List Content) (b : Built) : Prop := ∀ f ∈ b.faults, f.2.BlamedOn cs

namespace Built

theorem Blames.mono {b : Built} (h : Blames cs b) (hsub : cs ⊆ ds) : Blames ds b :=
  fun f hf => (h f hf).mono hsub

/-- A malformed node blames no scalar. -/
theorem blames_malformed (level : Nat) : Blames cs (failed level .malformed) := by
  intro f hf
  obtain rfl := List.mem_singleton.mp hf
  exact Or.inl rfl

/-- A node of the wrong kind blames no scalar. -/
theorem blames_misplaced (level : Nat) (tag : Tag) : Blames cs (misplaced level tag) :=
  blames_malformed _

/-- A scalar blames itself. -/
theorem blames_scalar {c : Content} (hc : c ∈ cs) (level : Nat) (tag : Tag) :
    Blames cs (scalar level tag c) := by
  unfold scalar
  split
  · exact fun f hf => by cases hf
  · rename_i fault hfault
    split
    · exact blames_misplaced level tag
    · intro f hf
      obtain rfl := List.mem_singleton.mp hf
      exact Or.inr ⟨c, hc, tag, hfault⟩

/-- A sequence blames what its items blame. -/
theorem blames_sequence {items : List Built} (h : ∀ b ∈ items, Blames cs b) :
    Blames cs (sequence items) := by
  intro f hf
  obtain ⟨b, hb, hfb⟩ := List.mem_flatMap.mp hf
  exact h b hb f hfb

/-- A mapping blames what its keys and values blame. -/
theorem blames_mapping {entries : List (Built × Built)}
    (h : ∀ e ∈ entries, Blames cs e.1 ∧ Blames cs e.2) (level : Nat) :
    Blames cs (mapping level entries) := by
  intro f hf
  obtain ⟨e, he, hfe⟩ := List.mem_flatMap.mp hf
  obtain ⟨hkey, hvalue⟩ := h e he
  rcases List.mem_append.mp hfe with hfe | hfe
  · rcases List.mem_append.mp hfe with hfe | hfe
    · exact hkey f hfe
    · -- a collection as a key is malformed
      split at hfe
      · cases hfe
      · obtain rfl := List.mem_singleton.mp hfe
        exact Or.inl rfl
  · exact hvalue f hfe

/-- The set of a mapping blames what the mapping blames. -/
theorem Blames.asSet {b : Built} (h : Blames cs b) : Blames cs b.asSet := by
  unfold Built.asSet
  split
  · exact h
  · exact h

/-- A choice between what was chosen before and the next one ends with one of all. -/
theorem mem_of_foldl_eq_some {α : Type} {choose : Option α → α → Option α}
    (hchoose : ∀ best a b, choose best a = some b → best = some b ∨ a = b) {l : List α}
    {best : Option α} {b : α} (h : l.foldl choose best = some b) : best = some b ∨ b ∈ l := by
  induction l generalizing best with
  | nil => exact Or.inl h
  | cons a l ih =>
      rcases ih h with h | h
      · rcases hchoose best a b h with h | rfl
        · exact Or.inl h
        · exact Or.inr List.mem_cons_self
      · exact Or.inr (List.mem_cons_of_mem _ h)

/-- The fault that counts is one of the faults. -/
theorem mem_of_fault? {b : Built} {f : Fault} (h : b.fault? = some f) : ∃ g ∈ b.faults, g.2 = f := by
  obtain ⟨g, hg, rfl⟩ := Option.map_eq_some_iff.mp h
  refine ⟨g, ?_, rfl⟩
  refine (mem_of_foldl_eq_some (fun best f g hchoice => ?_) hg).resolve_left (by simp)
  split at hchoice
  · exact Or.inr (Option.some.inj hchoice)
  · split at hchoice
    · exact Or.inr (Option.some.inj hchoice)
    · exact Or.inl hchoice

end Built

/-- Whether keys and values of entries blame scalars. -/
def Merged.Blames (cs : List Content) (m : Merged) : Prop :=
  ∀ e ∈ m.entries, Built.Blames cs e.1 ∧ Built.Blames cs e.2

theorem Merged.Blames.mono {m : Merged} (h : m.Blames cs) (hsub : cs ⊆ ds) : m.Blames ds :=
  fun e he => ⟨(h e he).1.mono hsub, (h e he).2.mono hsub⟩

/-- Nothing blames no scalar. -/
theorem Merged.blames_nil (fails : Bool) : Merged.Blames cs ⟨[], [], fails⟩ := fun e he => by cases he

/-- Entries blame what others blame that they come from. -/
theorem Merged.Blames.of_mem {m n : Merged} {es : List (Built × Built)} (hm : m.Blames cs)
    (hes : ∀ e ∈ es, Built.Blames cs e.1 ∧ Built.Blames cs e.2)
    (h : ∀ e ∈ n.entries, e ∈ es ∨ e ∈ m.entries) : n.Blames cs := by
  intro e he
  rcases h e he with he | he
  · exact hes e he
  · exact hm e he

namespace Node

mutual

/-- The scalar that a node stands for is inside it. -/
theorem mem_contents_of_standing? : ∀ (n : Node) (c : Content), n.standing? = some c → c ∈ n.contents
  | .scalar _ d, c, h => by
      rw [standing?] at h
      cases h
      rw [contents]
      exact List.mem_singleton_self d
  | .mapping _ entries, c, h => by
      rw [standing?] at h
      rw [contents]
      exact mem_contentsEntries_of_standingIn? entries c h
  | .sequence _ items, c, h => by simp [standing?] at h
  | .enclosing _ _, c, h => by simp [standing?] at h
termination_by structural n => n

/-- The scalar that entries stand for is inside them. -/
theorem mem_contentsEntries_of_standingIn? : ∀ (es : List (Node × Node)) (c : Content),
    standing?.standingIn? es = some c → c ∈ contentsEntries es
  | [], c, h => by simp [standing?.standingIn?] at h
  | (k, v) :: es, c, h => by
      rw [standing?.standingIn?] at h
      rw [contentsEntries]
      split at h
      · have hv := mem_contents_of_standing? v c h
        exact List.mem_append_left _ (List.mem_append_right _ hv)
      · have hes := mem_contentsEntries_of_standingIn? es c h
        exact List.mem_append_right _ hes
termination_by structural es => es

end

/-- A standing key blames no scalar. -/
theorem blames_standingKey (level : Nat) (k : Node) : Built.Blames cs (standingKey level k) := by
  unfold standingKey
  split
  · exact fun f hf => by cases hf
  · exact Built.blames_malformed level

mutual

/-- **What a node gives blames the scalars inside it.** -/
theorem blames_build : ∀ (n : Node) (level : Nat), Built.Blames n.contents (build level n)
  | .scalar tag c, level => by
      rw [build]
      exact Built.blames_scalar (by simp [contents]) level tag
  | .enclosing isMapping anchor, level => by
      rw [build]
      exact fun f hf => by cases hf
  | .sequence tag items, level => by
      rw [contents]
      have hitems := blames_buildItems items (level + 1)
      have hpairs := blames_buildPairs items (level + 1)
      cases tag with
      | sequence => exact Built.blames_sequence hitems
      | orderedMap => exact Built.blames_sequence hpairs
      | pairs => exact Built.blames_sequence hpairs
      | _ => exact Built.blames_misplaced level _
  | .mapping tag entries, level => by
      rw [contents]
      have hentries := blames_buildEntries entries (level + 1)
      have hmapping : Built.Blames (contentsEntries entries)
          (if (buildEntries (level + 1) entries).fails then .failed (level + 1) .malformed
            else .mapping (level + 1) (buildEntries (level + 1) entries).entries) := by
        split
        · exact Built.blames_malformed _
        · exact Built.blames_mapping hentries _
      have hscalar (tag : Tag) : Built.Blames (contentsEntries entries)
          (match standing?.standingIn? entries with
            | some c => .scalar level tag c
            | none => .misplaced level tag) := by
        split
        · rename_i c hc
          exact Built.blames_scalar (mem_contentsEntries_of_standingIn? entries c hc) level tag
        · exact Built.blames_misplaced level tag
      cases tag with
      | mapping => exact hmapping
      | set => exact hmapping.asSet
      | _ => exact hscalar _
termination_by structural n => n

/-- What items give blames the scalars inside them. -/
theorem blames_buildItems : ∀ (ns : List Node) (level : Nat),
    ∀ b ∈ buildItems level ns, Built.Blames (contentsAll ns) b
  | [], level, b, hb => by cases hb
  | n :: ns, level, b, hb => by
      rw [contentsAll]
      rcases List.mem_cons.mp hb with rfl | hb
      · exact (blames_build n level).mono (List.subset_append_left _ _)
      · exact (blames_buildItems ns level b hb).mono (List.subset_append_right _ _)
termination_by structural ns => ns

/-- What mappings of one entry each give blames the scalars inside them. -/
theorem blames_buildPairs : ∀ (ns : List Node) (level : Nat),
    ∀ b ∈ buildPairs level ns, Built.Blames (contentsAll ns) b
  | [], level, b, hb => by cases hb
  | n :: ns, level, b, hb => by
      rw [contentsAll]
      rcases List.mem_cons.mp hb with rfl | hb
      · exact (blames_buildPair n level).mono (List.subset_append_left _ _)
      · exact (blames_buildPairs ns level b hb).mono (List.subset_append_right _ _)
termination_by structural ns => ns

/-- What a mapping of one entry gives blames the scalars inside it. -/
theorem blames_buildPair : ∀ (n : Node) (level : Nat), Built.Blames n.contents (buildPair level n)
  | .mapping tag [(k, v)], level => by
      have hk := blames_build k level
      have hv := blames_build v level
      have hblames : ∀ b ∈ [build level k, build level v], Built.Blames (k.contents ++ v.contents) b := by
        intro b hb
        rcases List.mem_pair.mp hb with rfl | rfl
        · exact hk.mono (List.subset_append_left _ _)
        · exact hv.mono (List.subset_append_right _ _)
      rw [buildPair, buildPlainEntry]
      simpa [contents, contentsEntries] using Built.blames_sequence hblames
  | .mapping tag [], level => Built.blames_malformed _
  | .mapping tag (e :: f :: es), level => Built.blames_malformed _
  | .scalar tag c, level => Built.blames_malformed _
  | .sequence tag items, level => Built.blames_malformed _
  | .enclosing isMapping anchor, level => Built.blames_malformed _
termination_by structural n => n

/-- What entries give blames the scalars inside them. -/
theorem blames_buildEntries : ∀ (es : List (Node × Node)) (level : Nat),
    (buildEntries level es).Blames (contentsEntries es)
  | [], level => Merged.blames_nil _
  | (k, v) :: es, level => by
      rw [buildEntries, contentsEntries]
      have hkey : Built.Blames (k.contents ++ v.contents ++ contentsEntries es)
          (if k.tag = some .standing then standingKey level k else build level k) := by
        split
        · exact blames_standingKey level k
        · exact (blames_build k level).mono (by simp)
      have hvalue : Built.Blames (k.contents ++ v.contents ++ contentsEntries es) (build level v) :=
        (blames_build v level).mono (by simp)
      have hsource : (buildSource level v).Blames (k.contents ++ v.contents ++ contentsEntries es) :=
        (blames_buildSource v level).mono (by simp)
      have hrest : (buildEntries level es).Blames (k.contents ++ v.contents ++ contentsEntries es) :=
        (blames_buildEntries es level).mono (by simp)
      dsimp only
      split
      · -- the entries of the value are put before all others
        refine hrest.of_mem hsource fun e he => ?_
        simpa [Merged.entries, or_assoc] using he
      · have hown : ∀ e ∈ [(if k.tag = some .standing then standingKey level k else build level k,
            build level v)], Built.Blames (k.contents ++ v.contents ++ contentsEntries es) e.1 ∧
            Built.Blames (k.contents ++ v.contents ++ contentsEntries es) e.2 := by
          intro e he
          obtain rfl := List.mem_singleton.mp he
          exact ⟨hkey, hvalue⟩
        refine hrest.of_mem hown fun e he => ?_
        simpa [Merged.entries, or_left_comm] using he
termination_by structural es => es

/-- What is merged into a mapping blames the scalars inside it. -/
theorem blames_buildSource : ∀ (n : Node) (level : Nat), (buildSource level n).Blames n.contents
  | .mapping tag entries, level => by
      rw [buildSource, contents]
      exact blames_buildEntries entries level
  | .sequence tag items, level => by
      rw [buildSource, contents]
      exact blames_buildSources items level
  | .enclosing isMapping anchor, level => Merged.blames_nil _
  | .scalar tag c, level => Merged.blames_nil _
termination_by structural n => n

/-- What several mappings give blames the scalars inside them. -/
theorem blames_buildSources : ∀ (ns : List Node) (level : Nat),
    (buildSources level ns).Blames (contentsAll ns)
  | [], level => Merged.blames_nil _
  | n :: ns, level => by
      rw [buildSources, contentsAll]
      have hn : (buildMember level n).Blames (n.contents ++ contentsAll ns) :=
        (blames_buildMember n level).mono (by simp)
      have hns : (buildSources level ns).Blames (n.contents ++ contentsAll ns) :=
        (blames_buildSources ns level).mono (by simp)
      refine hns.of_mem hn fun e he => ?_
      simp only [Merged.entries, List.nil_append, List.mem_append] at he ⊢
      grind
termination_by structural ns => ns

/-- What one of several mappings gives blames the scalars inside it. -/
theorem blames_buildMember : ∀ (n : Node) (level : Nat), (buildMember level n).Blames n.contents
  | .mapping tag entries, level => by
      rw [buildMember, contents]
      exact blames_buildEntries entries level
  | .sequence tag items, level => Merged.blames_nil _
  | .enclosing isMapping anchor, level => Merged.blames_nil _
  | .scalar tag c, level => Merged.blames_nil _
termination_by structural n => n

end

end Node

end Stencil.Yaml
