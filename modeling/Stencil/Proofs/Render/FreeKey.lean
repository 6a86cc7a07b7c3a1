import Stencil.Proofs.Tree.Mention
import Stencil.Proofs.Value.Scope

/-! # What a rendering looks up

A rendering looks at the data only through the keys that the template mentions free.

* `Value.AgreeOn` says that two mappings agree on a key and on its other spelling; `entry_congr` says
  that a path then finds the same.
* `Alike` says this of two scopes, for the names that are bound and for some free keys; `Alike.bind`
  keeps it in the rounds of an iteration.
* `Template.render_eq_of_agreeOn`: mappings that agree on the free keys of a template are rendered alike. -/

namespace Stencil

/-! ## Agreement on a key -/

namespace Key

/-- Whether a key of a path **is spelled** as a key of a mapping: as its own value, or in its other
spelling. -/
def Spells (key : Key) (k : Value) : Prop := k = key.value ∨ key.other? = .ok (some k)

/-- In both spellings a key is the value of a key. -/
theorem Spells.exists_value {key : Key} {k : Value} (h : key.Spells k) : ∃ other : Key, k = other.value := by
  rcases h with rfl | h
  · exact ⟨key, rfl⟩
  · exact exists_of_other? h

end Key

namespace Value

/-- Whether two mappings **agree on a key**, in both of its spellings: each is absent from both, or has
the same value in both. -/
def AgreeOn (es fs : List (Value × Value)) (key : Key) : Prop :=
  ∀ k, key.Spells k → lookup? k es = lookup? k fs

variable {es fs : List (Value × Value)}

/-- A key finds the same in mappings that agree on it. -/
theorem entry_congr {key : Key} (h : AgreeOn es fs key) : entry es key = entry fs key := by
  rw [entry, entry, h key.value (Or.inl rfl)]
  split
  · rfl
  · -- neither mapping has the key itself, so that its other spelling is looked up
    cases hother : key.other? with
    | error l => rfl
    | ok k =>
        cases k with
        | none => rfl
        | some k => simp only [ok_bind, h k (Or.inr hother)]

/-- A key that is present finds its own value. -/
theorem entry_of_lookup? {key : Key} {v : Value} (h : lookup? key.value es = some v) :
    entry es key = .ok v := by
  rw [entry, h]

end Value

/-! ## Scopes that are alike -/

/-- Whether two scopes are **alike** for some bound names and free keys: each of the names has the same
value in both, and they agree on the keys. -/
structure Alike (es fs : List (Value × Value)) (bound : List String) (free : Key → Prop) : Prop where
  /-- The names that are bound. -/
  bound : ∀ name ∈ bound, ∃ v, Value.lookup? (Key.name name).value es = some v ∧
    Value.lookup? (Key.name name).value fs = some v
  /-- The keys that are free. -/
  free : ∀ key, free key → Value.AgreeOn es fs key

/-- Whether a mention looks up **only keys of a set** and names that are bound: its path has a first
key, which is in the set if it is free. -/
def Mention.Within (m : Mention) (free : Key → Prop) : Prop :=
  m.path.keys ≠ [] ∧ ∀ key, m.Free key → free key

namespace Alike

variable {es fs : List (Value × Value)} {bound : List String} {free : Key → Prop}

/-- **A mention finds the same** in scopes that are alike. -/
theorem resolve (h : Alike es fs bound free) {path : Path} (hm : Mention.Within ⟨bound, path⟩ free) :
    (Value.map es).resolve path = (Value.map fs).resolve path := by
  obtain ⟨key, keys, hkeys⟩ := List.exists_cons_of_ne_nil hm.1
  have hentry : Value.entry es key = Value.entry fs key := by
    by_cases hbound : ∃ name ∈ bound, key = .name name
    · obtain ⟨name, hname, rfl⟩ := hbound
      obtain ⟨v, hes, hfs⟩ := h.bound name hname
      rw [Value.entry_of_lookup? hes, Value.entry_of_lookup? hfs]
    · refine Value.entry_congr (h.free key (hm.2 key ⟨?_, fun name hname heq => ?_⟩))
      · rw [hkeys]
        rfl
      · exact hbound ⟨name, hname, heq⟩
  -- only the first step is taken in the scope itself
  rw [Value.resolve, Value.resolve, hkeys, Value.follow, Value.follow, Value.step, Value.step, hentry]

/-- **A round of an iteration** in scopes that are alike: its names are bound on top. -/
theorem bind (h : Alike es fs bound free) (it : Iteration) (pair : Value × Value) :
    ∃ es' fs', it.bind (.map es) pair = .map es' ∧ it.bind (.map fs) pair = .map fs' ∧
      Alike es' fs' (it.names ++ bound) free := by
  obtain ⟨es', hes, hes'⟩ := it.binds_bind es pair
  obtain ⟨fs', hfs, hfs'⟩ := it.binds_bind fs pair
  refine ⟨es', fs', hes, hfs, fun name hname => ?_, fun key hkey k hk => ?_⟩
  · rw [hes', hfs']
    by_cases hkeyName : it.keyName.map Key.name = some (Key.name name)
    · exact ⟨pair.1, if_pos hkeyName, if_pos hkeyName⟩
    · rw [if_neg hkeyName, if_neg hkeyName]
      by_cases hvalueName : Key.name name = .name it.valueName
      · exact ⟨pair.2, if_pos hvalueName, if_pos hvalueName⟩
      · rw [if_neg hvalueName, if_neg hvalueName]
        -- the name is none of the iteration, and so was bound before
        refine h.bound name ((List.mem_append.mp hname).resolve_left fun hmem => ?_)
        rcases List.mem_cons.mp hmem with rfl | hmem
        · exact hvalueName rfl
        · rw [Option.mem_toList] at hmem
          exact hkeyName (by rw [hmem]; rfl)
  · have hagree := h.free key hkey k hk
    obtain ⟨other, rfl⟩ := hk.exists_value
    rw [hes', hfs', hagree]

end Alike

/-! ## Rendering -/

/-- A segment looks at a scope through its paths. -/
theorem Segment.render_congr {s : Segment} {scope scope' : Value}
    (h : ∀ p ∈ s.paths, scope.resolve p = scope'.resolve p) : s.render scope = s.render scope' := by
  cases s with
  | literal text => rfl
  | placeholder path raw => rw [render, render, h path List.mem_cons_self]

/-- A condition looks at a scope through its paths. -/
theorem Condition.test?_congr {c : Condition} {scope scope' : Value}
    (h : ∀ p ∈ c.paths, scope.resolve p = scope'.resolve p) : c.test? scope = c.test? scope' := by
  have hleft : c.left scope = c.left scope' := by
    rw [left, left, h c.path List.mem_cons_self]
  rw [test?, test?, hleft]
  cases htest : c.test with
  | truthy => rfl
  | compare op operand =>
      have hoperand : operandValue scope operand = operandValue scope' operand := by
        cases operand with
        | literal v => rfl
        | path p =>
            refine h p (List.mem_cons_of_mem _ ?_)
            simp [htest, Test.operands, Operand.paths]
      simp only [hoperand]

section

variable {free : Key → Prop} {es fs : List (Value × Value)} {bound : List String}

/-- A text branch in scopes that are alike. -/
theorem Segment.renderAll_congr (limit : Option Int) {segments : List Segment}
    (h : Alike es fs bound free)
    (hwithin : ∀ m ∈ (segments.flatMap Segment.paths).map (Mention.mk bound), m.Within free) :
    renderAll limit (.map es) segments = renderAll limit (.map fs) segments := by
  have hsegments : segments.mapM (Segment.render (.map es)) = segments.mapM (Segment.render (.map fs)) := by
    refine mapM_congr fun s hs => Segment.render_congr fun p hp => h.resolve ?_
    exact hwithin _ (List.mem_map_of_mem (List.mem_flatMap.mpr ⟨s, hs, hp⟩))
  rw [renderAll, renderAll, hsegments]

mutual

/-- **A branch in scopes that are alike** is rendered alike. -/
theorem Branch.render_congr (limit : Option Int) : ∀ (b : Branch) (bound : List String)
    (es fs : List (Value × Value)), Alike es fs bound free →
    (∀ m ∈ Branch.mentions bound b, m.Within free) →
    Branch.render limit b (.map es) = Branch.render limit b (.map fs)
  | .text segments, bound, es, fs, h, hwithin => by
      rw [Branch.render, Branch.render]
      exact Segment.renderAll_congr limit h hwithin
  | .conditional c children, bound, es, fs, h, hwithin => by
      have hcondition : c.test? (.map es) = c.test? (.map fs) :=
        Condition.test?_congr fun p hp =>
          h.resolve (hwithin _ (List.mem_append_left _ (List.mem_map_of_mem hp)))
      have hchildren := Branch.renderAll_congr limit children bound es fs h fun m hm =>
        hwithin m (List.mem_append_right _ hm)
      rw [Branch.render, Branch.render, Condition.render, Condition.render, hcondition, hchildren]
  | .repeated it children, bound, es, fs, h, hwithin => by
      have hrounds : ∀ pair, Branch.renderAll limit children (it.bind (.map es) pair) =
          Branch.renderAll limit children (it.bind (.map fs) pair) := by
        intro pair
        obtain ⟨es', fs', hes, hfs, halike⟩ := h.bind it pair
        rw [hes, hfs]
        exact Branch.renderAll_congr limit children _ es' fs' halike fun m hm =>
          hwithin m (List.mem_cons_of_mem _ hm)
      -- the collection is looked up in the scope itself, without the names of the iteration
      rw [Branch.render, Branch.render, h.resolve (hwithin _ List.mem_cons_self)]
      simp only [hrounds]
termination_by structural b => b

/-- **Branches in scopes that are alike** are rendered alike. -/
theorem Branch.renderAll_congr (limit : Option Int) : ∀ (bs : List Branch) (bound : List String)
    (es fs : List (Value × Value)), Alike es fs bound free →
    (∀ m ∈ Branch.mentionsAll bound bs, m.Within free) →
    Branch.renderAll limit bs (.map es) = Branch.renderAll limit bs (.map fs)
  | [], _, _, _, _, _ => rfl
  | b :: bs, bound, es, fs, h, hwithin => by
      rw [Branch.renderAll, Branch.renderAll,
        Branch.render_congr limit b bound es fs h fun m hm => hwithin m (List.mem_append_left _ hm),
        Branch.renderAll_congr limit bs bound es fs h fun m hm =>
          hwithin m (List.mem_append_right _ hm)]
termination_by structural bs => bs

end

end

namespace Template

/-- The **free keys** of a template: those that one of its paths begins with, and that are no name
bound there. -/
def Reads (t : Template) (key : Key) : Prop := ∃ m ∈ Branch.mentionsAll [] t.tree, m.Free key

/-- **A compiled template looks at the data only through its free keys**: mappings that agree on each
of them, in both of its spellings, are rendered alike, with the same account of what was charged for,
walked and logged. -/
theorem render_eq_of_agreeOn {source : String} {config : Config} {t : Template}
    (ht : compile source config = .ok t) {es fs : List (Value × Value)}
    (h : ∀ key, t.Reads key → Value.AgreeOn es fs key) :
    t.render (.map es) = t.render (.map fs) := by
  have halike : Alike es fs [] t.Reads := ⟨fun name hname => absurd hname (List.not_mem_nil), h⟩
  have hrender := Branch.renderAll_congr t.maxOutput t.tree [] es fs halike fun m hm =>
    ⟨(isRead_of_compile ht m hm).keys_ne_nil, fun key hfree => ⟨m, hm, hfree⟩⟩
  rw [render, render]
  simp only [pure_bind, hrender]

/-- A repetition whose value has the name `v`, and whose key is read as the number zero. -/
def shadowing : String := "$\x7b#each xs as 0 to v\x7d$\x7b[0]\x7d$\x7bv\x7d$\x7b#end each\x7d"

/-- Its tree. -/
def shadowingTree : List Branch :=
  [.repeated ⟨⟨"xs", [.name "xs"]⟩, "v", some "0"⟩
    [.text [.placeholder ⟨"[0]", [.index 0]⟩ "$\x7b[0]\x7d",
      .placeholder ⟨"v", [.name "v"]⟩ "$\x7bv\x7d"]]]

/-- The collection alone. -/
def lone : List (Value × Value) := [(.text "xs", .list [.text "a"])]

/-- The collection, a value under the name of its values, and a value that nothing mentions. -/
def crowded : List (Value × Value) :=
  [(.text "v", .text "b"), (.text "xs", .list [.text "a"]), (.text "w", .text "c")]

theorem render_eq_of_agreeOn_shadowing :
    compile shadowing {} = .ok ⟨shadowingTree, shadowing, none⟩ ∧
    (∀ key, Reads ⟨shadowingTree, shadowing, none⟩ key → Value.AgreeOn lone crowded key) ∧
    render ⟨shadowingTree, shadowing, none⟩ (.map lone) =
      render ⟨shadowingTree, shadowing, none⟩ (.map crowded) ∧
    ((render ⟨shadowingTree, shadowing, none⟩ (.map lone)).run .start).1 = .ok "0a" := by
  have hscan : Token.scan shadowing = [.opening 0 "each" "xs as 0 to v",
      .text 21 "$\x7b[0]\x7d$\x7bv\x7d", .closing 31 "each"] := by with_unfolding_all rfl
  have hheader : Iteration.parse "xs as 0 to v" (some 0) =
      .ok ⟨⟨"xs", [.name "xs"]⟩, "v", some "0"⟩ := by decide +kernel
  have htext : Segment.scan "$\x7b[0]\x7d$\x7bv\x7d" =
      .ok [.placeholder ⟨"[0]", [.index 0]⟩ "$\x7b[0]\x7d",
        .placeholder ⟨"v", [.name "v"]⟩ "$\x7bv\x7d"] := by with_unfolding_all rfl
  have hbuild : Tree.build (Token.scan shadowing) none = .ok shadowingTree :=
    Tree.build_eq_ok_iff.mpr ⟨.directive 0 "each" "xs as 0 to v" (.text 21 _ .empty) 31 .empty,
      hscan.symm, .repeated hheader (.text htext .empty) .empty⟩
  have ht : compile shadowing {} = .ok ⟨shadowingTree, shadowing, none⟩ := by
    rw [compile, hbuild]
    rfl
  have hagree : ∀ key, Reads ⟨shadowingTree, shadowing, none⟩ key →
      Value.AgreeOn lone crowded key := by
    rintro key ⟨m, hm, hhead, hfree⟩
    have hmentions : Branch.mentionsAll [] shadowingTree = [⟨[], ⟨"xs", [.name "xs"]⟩⟩,
      ⟨["v", "0"], ⟨"[0]", [.index 0]⟩⟩, ⟨["v", "0"], ⟨"v", [.name "v"]⟩⟩] := rfl
    simp only [hmentions, List.mem_cons, List.not_mem_nil, or_false] at hm
    rcases hm with rfl | rfl | rfl
    · obtain rfl := Option.some.inj hhead
      rintro k (rfl | hk)
      · rfl
      · cases hk
    · obtain rfl := Option.some.inj hhead
      rintro k (rfl | hk)
      · rfl
      · cases hk
        rfl
    · obtain rfl := Option.some.inj hhead
      exact absurd rfl (hfree "v" (by simp))
  exact ⟨ht, hagree, render_eq_of_agreeOn ht hagree, by decide +kernel⟩

end Template

end Stencil
