import Mathlib.Data.List.Infix
import Stencil.Directive.Iteration
import Stencil.Proofs.Text.Blank

/-! # Where a path ends in a directive

* `Directive.pathText_append`: splitting off a path loses nothing.
* `Directive.IsRun` is what is split off: bracket groups and characters of a class, in a row.
  `IsRun.pathText_append` says that a run is split off as a whole when nothing behind it goes on, and
  `Directive.isRun_pathText` that nothing else is split off.
* `Condition.of_split?` and `Iteration.of_split?`: the parts of a condition and of an iteration, told from
  the path that is split off. -/

namespace Stencil.Directive

variable {inPath : Char → Bool}

/-- What is split off and what is left are the whole. -/
theorem pathText_append (inPath : Char → Bool) (s : List Char) :
    (pathText inPath s).1 ++ (pathText inPath s).2 = s := by
  fun_induction pathText inPath s with
  | case1 => rfl
  | case2 => rfl
  | case3 rest inside after hcut _ ih =>
      rw [(Text.eq_of_cut? hcut).1]
      simpa using ih
  | case4 c rest _ _ _ ih => simpa using ih
  | case5 => rfl

theorem pathText_isPrefix (inPath : Char → Bool) (s : List Char) : (pathText inPath s).1 <+: s :=
  ⟨_, pathText_append inPath s⟩

theorem pathText_isSuffix (inPath : Char → Bool) (s : List Char) : (pathText inPath s).2 <:+ s :=
  ⟨_, pathText_append inPath s⟩

/-- A **run** of bracket groups, which reach to their first closing bracket, and of characters of a
class. -/
inductive IsRun (inPath : Char → Bool) : List Char → Prop where
  /-- Nothing. -/
  | nil : IsRun inPath []
  /-- A character of the class, and a run. -/
  | char {c : Char} {s : List Char} (hopen : c ≠ '[') (hc : inPath c = true) (hs : IsRun inPath s) :
      IsRun inPath (c :: s)
  /-- A bracket group, and a run. -/
  | group {inside s : List Char} (hinside : ']' ∉ inside) (hs : IsRun inPath s) :
      IsRun inPath ('[' :: (inside ++ ']' :: s))

/-- **A run is split off as a whole** when neither a bracket nor a character of the class is behind it. -/
theorem IsRun.pathText_append {p rest : List Char} (h : IsRun inPath p)
    (hrest : ∀ c ∈ rest.head?, c ≠ '[' ∧ inPath c = false) : pathText inPath (p ++ rest) = (p, rest) := by
  induction h with
  | nil =>
      cases rest with
      | nil => rw [List.append_nil, pathText]
      | cons c rest =>
          obtain ⟨hopen, hc⟩ := hrest c rfl
          rw [List.nil_append, pathText, if_neg hopen, if_neg (by simp [hc])]
  | @char c s hopen hc _ ih => rw [List.cons_append, pathText, if_neg hopen, if_pos hc, ih]
  | @group inside s hinside _ ih =>
      have hcut : Text.cut? ']' (inside ++ ']' :: (s ++ rest)) = some (inside, s ++ rest) :=
        Text.cut?_append_cons hinside (s ++ rest)
      rw [List.cons_append, List.append_assoc, List.cons_append, pathText, if_pos rfl]
      split
      · rename_i hnone
        rw [hcut] at hnone
        cases hnone
      · rename_i inside' after hsome
        rw [hcut] at hsome
        cases hsome
        rw [ih]

/-- What is split off is a run. -/
theorem isRun_pathText (inPath : Char → Bool) (s : List Char) : IsRun inPath (pathText inPath s).1 := by
  fun_induction pathText inPath s with
  | case1 => exact .nil
  | case2 => exact .nil
  | case3 rest inside after hcut _ ih => exact .group (Text.eq_of_cut? hcut).2 ih
  | case4 c rest hopen hc _ ih => exact .char hopen hc ih
  | case5 => exact .nil

/-- **Where splitting stops**: at a bracket that is never closed, or at a character outside the class. -/
theorem head_pathText (inPath : Char → Bool) (s : List Char) {c : Char} {rest : List Char}
    (h : (pathText inPath s).2 = c :: rest) : c = '[' ∧ ']' ∉ rest ∨ c ≠ '[' ∧ inPath c = false := by
  fun_induction pathText inPath s with
  | case1 => cases h
  | case2 s hcut =>
      cases h
      exact Or.inl ⟨rfl, Text.cut?_eq_none_iff.mp hcut⟩
  | case3 s inside after _ p ih => exact ih h
  | case4 d s _ _ p ih => exact ih h
  | case5 d s hopen hd =>
      cases h
      exact Or.inr ⟨hopen, Bool.not_eq_true _ ▸ hd⟩

/-- A run begins with a bracket or a character of the class. -/
theorem IsRun.head {p : List Char} (h : IsRun inPath p) : ∀ c ∈ p.head?, c = '[' ∨ inPath c = true := by
  intro c hc
  cases h with
  | nil => cases hc
  | char _ hin _ =>
      cases hc
      exact Or.inr hin
  | group _ _ =>
      cases hc
      exact Or.inl rfl

/-- A run ends with a bracket or a character of the class. -/
theorem IsRun.last {p : List Char} (h : IsRun inPath p) :
    ∀ c ∈ p.getLast?, c = ']' ∨ inPath c = true := by
  induction h with
  | nil =>
      intro c hc
      cases hc
  | @char c s _ hin hs ih =>
      intro d hd
      cases s with
      | nil =>
          cases hd
          exact Or.inr hin
      | cons e s => exact ih d (by simpa using hd)
  | @group inside s _ hs ih =>
      intro d hd
      cases s with
      | nil =>
          have hclose : d = ']' := by simpa [List.getLast?_cons] using hd.symm
          exact Or.inl hclose
      | cons e s => exact ih d (by simpa [List.getLast?_cons, List.getLast?_append] using hd)

/-- A run of a class without blanks has none around it. -/
theorem IsRun.bare {p : List Char} (h : IsRun inPath p)
    (hclass : ∀ c, inPath c = true → Text.isBlank c = false) : Text.Bare p := by
  constructor
  · intro c hc
    rcases h.head c hc with rfl | hin
    · rfl
    · exact hclass c hin
  · intro c hc
    rcases h.last c hc with rfl | hin
    · rfl
    · exact hclass c hin

end Stencil.Directive

namespace Stencil

/-- **What a condition is split into.** The path is split off what stands behind the mark of negation, and
behind the path there is nothing, or a comparison. -/
theorem Condition.of_split? {s : List Char} {w : Written} (h : split? s = some w) :
    ∃ t, (s.head? == some '!') = w.negated ∧
      (if w.negated then Text.trimLeft (s.drop 1) else s) = t ∧
      w.path = String.ofList (Directive.pathText inPath t).1 ∧ (Directive.pathText inPath t).1 ≠ [] ∧
      (w.comparison = none ∧ (Directive.pathText inPath t).2 = [] ∨ ∃ c, w.comparison = some c ∧
        splitComparison? (Text.trimLeft (Directive.pathText inPath t).2) = some c) := by
  unfold split? at h
  dsimp only at h
  generalize ht : (if (s.head? == some '!') = true then Text.trimLeft (s.drop 1) else s) = t at h
  split at h
  · cases h
  · rename_i hne
    rw [List.isEmpty_iff] at hne
    split at h
    · rename_i hrest
      cases h
      exact ⟨t, rfl, ht, rfl, hne, Or.inl ⟨rfl, List.isEmpty_iff.mp hrest⟩⟩
    · obtain ⟨c, hsplit, he⟩ := Option.map_eq_some_iff.mp h
      cases he
      exact ⟨t, rfl, ht, rfl, hne, Or.inr ⟨c, rfl, hsplit⟩⟩

/-- **What an iteration is split into**: a path, and the names that are read off the words behind it. -/
theorem Iteration.of_split? {s : List Char} {path : String} {names : Option String × String}
    (h : split? s = some (path, names)) :
    path = String.ofList (Directive.pathText inPath s).1 ∧ (Directive.pathText inPath s).1 ≠ [] ∧
      names? (Text.words (Directive.pathText inPath s).2) = some names := by
  unfold split? at h
  dsimp only at h
  split at h
  · cases h
  · rename_i hne
    obtain ⟨_, hnames, he⟩ := Option.map_eq_some_iff.mp h
    cases he
    exact ⟨rfl, by rwa [List.isEmpty_iff] at hne, hnames⟩

end Stencil
