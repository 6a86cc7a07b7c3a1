import Stencil.Proofs.Tree.Depth
import Stencil.Template

/-! # What a tree mentions

The paths that a tree follows and the values that it compares with, read off the tree alone.

* `Branch.mentionsAll` lists the paths, each with the names that are bound where it stands, and
  `Mention.Free` says which key a path looks up in the data.
* `Branch.literalsAll` lists the values that are written out in conditions, and `Branch.conditionsAll`
  the conditions themselves.
* `Template.isRead_of_compile`: the paths of a compiled tree were read from texts, and so have keys
  (`Path.IsRead.keys_ne_nil`). -/

namespace Stencil

/-! ## Mentions -/

/-- A **mention** of a path, with the names that are bound where it stands. -/
structure Mention where
  /-- The names of the iterations around it. -/
  bound : List String
  /-- The path. -/
  path : Path
  deriving DecidableEq, Repr

/-- Whether a mention **begins with a free key**: its first key is no name that is bound. -/
def Mention.Free (m : Mention) (key : Key) : Prop :=
  m.path.keys.head? = some key ∧ ∀ name ∈ m.bound, key ≠ .name name

/-- The paths of a segment. -/
def Segment.paths : Segment → List Path
  | .literal _ => []
  | .placeholder path _ => [path]

/-- The paths of an operand. -/
def Operand.paths : Operand → List Path
  | .literal _ => []
  | .path p => [p]

/-- The values that are written out in an operand. -/
def Operand.literals : Operand → List Value
  | .literal v => [v]
  | .path _ => []

/-- The operands of a test. -/
def Test.operands : Test → List Operand
  | .truthy => []
  | .compare _ operand => [operand]

/-- The paths of a condition: its left side, and the path that it compares with. -/
def Condition.paths (c : Condition) : List Path := c.path :: c.test.operands.flatMap Operand.paths

/-- The values that are written out in a condition. -/
def Condition.literals (c : Condition) : List Value := c.test.operands.flatMap Operand.literals

/-- The names that an iteration binds. -/
def Iteration.names (it : Iteration) : List String := it.valueName :: it.keyName.toList

mutual

/-- The mentions in a branch. The collection of an iteration stands outside of its scope. -/
def Branch.mentions (bound : List String) : Branch → List Mention
  | .text segments => (segments.flatMap Segment.paths).map (Mention.mk bound)
  | .conditional c children => c.paths.map (Mention.mk bound) ++ Branch.mentionsAll bound children
  | .repeated it children =>
      ⟨bound, it.collection⟩ :: Branch.mentionsAll (it.names ++ bound) children
termination_by structural b => b

/-- **The mentions in a row of branches**, below iterations that bind these names. -/
def Branch.mentionsAll (bound : List String) : List Branch → List Mention
  | [] => []
  | b :: bs => Branch.mentions bound b ++ Branch.mentionsAll bound bs
termination_by structural bs => bs

end

mutual

/-- The values that are written out in a branch. -/
def Branch.literals : Branch → List Value
  | .text _ => []
  | .conditional c children => c.literals ++ Branch.literalsAll children
  | .repeated _ children => Branch.literalsAll children
termination_by structural b => b

/-- **The values that are written out** in a row of branches. -/
def Branch.literalsAll : List Branch → List Value
  | [] => []
  | b :: bs => b.literals ++ Branch.literalsAll bs
termination_by structural bs => bs

end

mutual

/-- The conditions in a branch. -/
def Branch.conditions : Branch → List Condition
  | .text _ => []
  | .conditional c children => c :: Branch.conditionsAll children
  | .repeated _ children => Branch.conditionsAll children
termination_by structural b => b

/-- **The conditions in a row of branches.** -/
def Branch.conditionsAll : List Branch → List Condition
  | [] => []
  | b :: bs => b.conditions ++ Branch.conditionsAll bs
termination_by structural bs => bs

end

/-! ## Paths that are read -/

namespace Path

/-- Whether a path **was read** from a text. -/
def IsRead (path : Path) : Prop := ∃ text, parse text = .ok path

/-- Reading keys from the beginning of a text that is not empty gives one. -/
theorem ne_nil_of_keysFrom {text : String} {total : Nat} {s : List Char} {keys : List Key}
    (hs : s ≠ []) (h : keysFrom text total true s = .ok keys) : keys ≠ [] := by
  unfold keysFrom at h
  split at h
  · exact absurd rfl hs
  · split at h
    · cases h
    · obtain ⟨key, -, h⟩ := bind_eq_ok_iff.mp h
      obtain ⟨later, -, h⟩ := bind_eq_ok_iff.mp h
      cases h
      exact List.cons_ne_nil _ _
  · cases h
  · rw [if_pos rfl] at h
    split at h
    · cases h
    · obtain ⟨later, -, h⟩ := bind_eq_ok_iff.mp h
      cases h
      exact List.cons_ne_nil _ _

/-- **A path that is read has a key.** -/
theorem IsRead.keys_ne_nil {path : Path} (h : path.IsRead) : path.keys ≠ [] := by
  obtain ⟨text, h⟩ := h
  unfold parse at h
  split at h
  · cases h
  · rename_i hs
    obtain ⟨keys, hkeys, h⟩ := bind_eq_ok_iff.mp h
    cases h
    exact ne_nil_of_keysFrom hs hkeys

end Path

/-- The path of an operand is read. -/
theorem Operand.isRead_of_parse {token : String} {operand : Operand} (h : parse token = .ok operand) :
    ∀ p ∈ operand.paths, p.IsRead := by
  unfold parse at h
  dsimp only at h
  intro p hp
  split at h
  · cases h; cases hp
  · split at h
    · cases h; cases hp
    · split at h
      · cases h
      · cases h; cases hp
      · obtain ⟨path, hpath, rfl⟩ := map_eq_ok_iff.mp h
        obtain rfl := List.mem_singleton.mp hp
        exact ⟨_, hpath⟩

/-- The paths of a condition are read. -/
theorem Condition.isRead_of_parse {arguments : String} {offset : Option Int} {c : Condition}
    (h : parse arguments offset = .ok c) : ∀ p ∈ c.paths, p.IsRead := by
  unfold parse at h
  dsimp only at h
  split at h
  · cases h
  · obtain ⟨path, hpath, h⟩ := bind_eq_ok_iff.mp h
    have hread : path.IsRead := ⟨_, mapError_eq_ok_iff.mp hpath⟩
    split at h
    · cases h
      intro p hp
      obtain rfl := List.mem_singleton.mp hp
      exact hread
    · split at h
      · cases h
      · obtain ⟨operand, hoperand, h⟩ := bind_eq_ok_iff.mp h
        cases h
        intro p hp
        rcases List.mem_cons.mp hp with rfl | hp
        · exact hread
        · refine Operand.isRead_of_parse (mapError_eq_ok_iff.mp hoperand) p ?_
          simpa [Test.operands] using hp

/-- The collection of an iteration is read. -/
theorem Iteration.isRead_of_parse {arguments : String} {offset : Option Int} {it : Iteration}
    (h : parse arguments offset = .ok it) : it.collection.IsRead := by
  unfold parse at h
  split at h
  · cases h
  · obtain ⟨path, hpath, h⟩ := bind_eq_ok_iff.mp h
    cases h
    exact ⟨_, mapError_eq_ok_iff.mp hpath⟩

/-- A literal run has no path. -/
theorem Segment.paths_ofRun (run : String) : (ofRun run).flatMap paths = [] := by
  rw [ofRun]
  split <;> rfl

/-- The paths of the segments of pieces are read. -/
theorem Segment.isRead_of_ofPieces {run : String} {ps : List Markup.Piece} {segments : List Segment}
    (h : ofPieces run ps = .ok segments) : ∀ p ∈ segments.flatMap paths, p.IsRead := by
  fun_induction ofPieces run ps generalizing segments with
  | case1 run =>
      cases h
      intro p hp
      rw [paths_ofRun] at hp
      cases hp
  | case2 run inner rest ih => exact ih h
  | case3 run c rest _ ih => exact ih h
  | case4 run inner rest raw path hpath =>
      rename_i ih
      -- a placeholder has the path that was just read
      obtain ⟨later, hlater, h⟩ := bind_eq_ok_iff.mp h
      cases h
      intro p hp
      rw [List.flatMap_append, paths_ofRun, List.nil_append, List.flatMap_cons] at hp
      rcases List.mem_append.mp hp with hfirst | hlaterPath
      · obtain rfl := List.mem_singleton.mp hfirst
        exact ⟨_, hpath⟩
      · exact ih hlater p hlaterPath
  | case5 run inner rest raw text fault hpath =>
      rename_i ih
      exact ih h
  | case6 run inner rest l hpath => cases h

/-- **The paths in the branches of a forest** are read. -/
theorem Tree.Forest.Yields.isRead {f : Forest} {bs : List Branch} (h : f.Yields bs)
    (bound : List String) : ∀ m ∈ Branch.mentionsAll bound bs, m.path.IsRead := by
  induction h generalizing bound with
  | empty =>
      intro m hm
      cases hm
  | text scanned _ later =>
      intro m hm
      rcases List.mem_append.mp hm with hm | hm
      · obtain ⟨p, hp, rfl⟩ := List.mem_map.mp hm
        exact Segment.isRead_of_ofPieces scanned p hp
      · exact later bound m hm
  | conditional read _ _ within later =>
      intro m hm
      rcases List.mem_append.mp hm with hm | hm
      · rcases List.mem_append.mp hm with hm | hm
        · obtain ⟨p, hp, rfl⟩ := List.mem_map.mp hm
          exact Condition.isRead_of_parse read p hp
        · exact within bound m hm
      · exact later bound m hm
  | repeated read _ _ within later =>
      intro m hm
      rcases List.mem_append.mp hm with hm | hm
      · rcases List.mem_cons.mp hm with rfl | hm
        · exact Iteration.isRead_of_parse read
        · exact within _ m hm
      · exact later bound m hm

/-- Whether a condition **was read** from the arguments of a directive. -/
def Condition.IsRead (c : Condition) : Prop := ∃ arguments offset, parse arguments offset = .ok c

/-- **The conditions in the branches of a forest** are read. -/
theorem Tree.Forest.Yields.conditionsRead {f : Forest} {bs : List Branch} (h : f.Yields bs) :
    ∀ c ∈ Branch.conditionsAll bs, c.IsRead := by
  induction h with
  | empty =>
      intro c hc
      cases hc
  | text _ _ later => exact later
  | conditional read _ _ within later =>
      intro c hc
      rcases List.mem_append.mp hc with hc | hc
      · rcases List.mem_cons.mp hc with rfl | hc
        · exact ⟨_, _, read⟩
        · exact within c hc
      · exact later c hc
  | repeated _ _ _ within later =>
      intro c hc
      rcases List.mem_append.mp hc with hc | hc
      · exact within c hc
      · exact later c hc

/-- A compiled tree is yielded by a forest. -/
theorem Template.exists_forest_of_compile {source : String} {config : Config} {t : Template}
    (h : compile source config = .ok t) : ∃ f : Tree.Forest, f.Yields t.tree := by
  obtain ⟨tree, hbuild, h⟩ := bind_eq_ok_iff.mp h
  cases h
  obtain ⟨f, -, hf⟩ := Tree.build_eq_ok_iff.mp (Tree.build_none_of_ok hbuild)
  exact ⟨f, hf⟩

/-- **The conditions of a compiled tree** are read. -/
theorem Template.conditionsRead_of_compile {source : String} {config : Config} {t : Template}
    (h : compile source config = .ok t) : ∀ c ∈ Branch.conditionsAll t.tree, c.IsRead := by
  obtain ⟨f, hf⟩ := exists_forest_of_compile h
  exact hf.conditionsRead

/-- **The paths of a compiled tree** are read. -/
theorem Template.isRead_of_compile {source : String} {config : Config} {t : Template}
    (h : compile source config = .ok t) : ∀ m ∈ Branch.mentionsAll [] t.tree, m.path.IsRead := by
  obtain ⟨f, hf⟩ := exists_forest_of_compile h
  exact hf.isRead []

end Stencil
