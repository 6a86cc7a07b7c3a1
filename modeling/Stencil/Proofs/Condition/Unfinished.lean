import Stencil.Proofs.Condition.Spelling

/-! # Comparisons without an operand

A comparison that ends with its operator. An operator has as many marks as leave an operand, so that the
last mark of it is taken for the operand, and the marks before for the operator.

* `Condition.run_of_parse_truthy`: a text that asks whether a path counts as true is that path.
* `Condition.split?_unfinished`: how a comparison is split that ends with its operator.
* `Condition.parse_without_operand` is the result: the comparison is rejected iff the marks before the last
  one are no operator. -/

namespace Stencil.Condition

/-- A text without a mark of negation and without a comparison is the text of a path. -/
theorem run_of_split? {s : List Char} {p : String} (h : split? s = some ⟨false, p, none⟩) :
    Directive.IsRun inPath s ∧ s ≠ [] ∧ p = String.ofList s := by
  obtain ⟨t, -, ht, hp, hne, ⟨-, hrest⟩ | ⟨c, hc, -⟩⟩ := of_split? h
  · obtain rfl : s = t := ht
    have happend := Directive.pathText_append inPath s
    have hrun := Directive.isRun_pathText inPath s
    rw [hrest, List.append_nil] at happend
    rw [happend] at hrun hne hp
    exact ⟨hrun, hne, hp⟩
  · cases hc

/-- **What asks whether a path counts as true is that path**, with blanks around it. -/
theorem run_of_parse_truthy {p : String} {path : Path} {offset : Option Int}
    (h : parse p offset = .ok ⟨false, path, .truthy⟩) :
    Directive.IsRun inPath (Text.trim p.toList) ∧ Text.trim p.toList ≠ [] ∧
      Path.parse (String.ofList (Text.trim p.toList)) = .ok path := by
  unfold parse at h
  dsimp only at h
  split at h
  · cases h
  · rename_i w hsplit
    obtain ⟨negated, text, comparison⟩ := w
    obtain ⟨q, hq, h⟩ := bind_eq_ok_iff.mp h
    cases comparison with
    | none =>
        cases h
        obtain ⟨hrun, hne, rfl⟩ := run_of_split? hsplit
        exact ⟨hrun, hne, mapError_eq_ok_iff.mp hq⟩
    | some c =>
        dsimp only at h
        split at h
        · cases h
        · obtain ⟨operand, -, he⟩ := bind_eq_ok_iff.mp h
          cases he

/-- **How a comparison is split that ends with its operator.** -/
theorem split?_unfinished {w : Spelling} (hne : w.path ≠ []) (hoperand : w.operand = [])
    (hmarks : ∀ c ∈ w.operator, isMark c = true) (hop : w.operator ≠ []) :
    split? (Text.trim w.text) =
      (splitComparison? w.operator).map fun c => ⟨w.negated, String.ofList w.path, some c⟩ := by
  obtain ⟨m, ms, ho⟩ := List.exists_cons_of_ne_nil hop
  have hm : isMark m = true := hmarks m (ho ▸ List.mem_cons_self)
  have hbare : Text.Bare w.operator := Text.Bare.of_forall fun c hc => isBlank_of_isMark (hmarks c hc)
  have htail : Text.AllBlank (w.after ++ w.tail) := fun c hc => (List.mem_append.mp hc).elim
    (w.blanks w.after (by simp) c) (w.blanks w.tail (by simp) c)
  have htrim := Text.trim_append (w.blanks w.lead (by simp))
    (Spelling.bare_append hne hbare hop w.before) htail
  have htext : w.text = w.lead ++ (w.mark ++ (w.path ++ (w.before ++ w.operator))) ++ (w.after ++ w.tail) := by
    simp [Spelling.text, Spelling.front, hoperand]
  -- behind the operator there is nothing left
  have hhead := @Spelling.head_behind w m ms [] hm
  have hleft := @Spelling.trimLeft_behind w m ms [] hm
  rw [List.append_nil] at hhead hleft
  have hrest : (w.before ++ m :: ms).isEmpty = false := by simp
  rw [htext, htrim, ho, Spelling.mark, split?_append (w.blanks w.inner (by simp)) w.run hne hhead, hrest,
    hleft]
  rfl

/-- A **comparison without an operand**: a text, negated or not, an operator, and blanks between them and
at the end. -/
def unfinished (negated : Bool) (inner : List Char) (p : String) (before operator after : List Char) :
    String :=
  String.ofList ((if negated then '!' :: inner else []) ++ (p.toList ++ (before ++ (operator ++ after))))

/-- Such a comparison is one of the spellings, with the blanks around its path put to those before and
behind it, and with nothing for the operand. -/
theorem exists_spelling_unfinished {p : String} (hrun : Directive.IsRun inPath (Text.trim p.toList))
    (negated : Bool) {inner before after : List Char}
    (hblanks : ∀ s ∈ [inner, before, after], Text.AllBlank s) (o : List Char) :
    ∃ w : Spelling, w.text = (unfinished negated inner p before o after).toList ∧ w.negated = negated ∧
      w.path = Text.trim p.toList ∧ w.operator = o ∧ w.operand = [] := by
  obtain ⟨lead, tail, hlead, htail, -, hp⟩ := Text.exists_trim p.toList
  have hnil : Text.AllBlank [] := List.forall_mem_nil _
  have hinner := hblanks inner (by simp)
  have hbefore : Text.AllBlank (tail ++ before) := fun c hc => (List.mem_append.mp hc).elim
    (htail c) (hblanks before (by simp) c)
  have hafter := hblanks after (by simp)
  cases negated with
  | false =>
      refine ⟨⟨lead, false, [], Text.trim p.toList, tail ++ before, o, after, [], [], ?_, hrun⟩, ?_,
        rfl, rfl, rfl, rfl⟩
      · simp only [List.mem_cons, List.not_mem_nil, or_false, forall_eq_or_imp, forall_eq]
        exact ⟨hlead, hnil, hbefore, hafter, hnil⟩
      · rw [unfinished, String.toList_ofList]
        conv_rhs => rw [hp]
        simp [Spelling.text, Spelling.front, Spelling.mark]
  | true =>
      have hinner' : Text.AllBlank (inner ++ lead) := fun c hc => (List.mem_append.mp hc).elim
        (hinner c) (hlead c)
      refine ⟨⟨[], true, inner ++ lead, Text.trim p.toList, tail ++ before, o, after, [], [], ?_, hrun⟩, ?_,
        rfl, rfl, rfl, rfl⟩
      · simp only [List.mem_cons, List.not_mem_nil, or_false, forall_eq_or_imp, forall_eq]
        exact ⟨hnil, hinner', hbefore, hafter, hnil⟩
      · rw [unfinished, String.toList_ofList]
        conv_rhs => rw [hp]
        simp [Spelling.text, Spelling.front, Spelling.mark]

/-- **An operator with nothing behind it is split before its last mark**, which is an equality sign, if
there are two marks or more. -/
theorem splitComparison?_operator {o : List Char} {op : Operator}
    (hop : Operator.ofSpelling? (String.ofList o) = some op) :
    splitComparison? o = if o.length = 1 then none else some (String.ofList o.dropLast, "=") := by
  obtain ⟨t, ht, rfl⟩ := Operator.eq_of_ofSpelling? hop
  have hall : ∀ t ∈ ["==", "!=", "<", ">", "<=", ">=", "===", "!=="], splitComparison? t.toList =
      if t.toList.length = 1 then none else some (String.ofList t.toList.dropLast, "=") := by
    decide +kernel
  exact hall t ht

/-- The operand that the last mark is taken for. -/
theorem parse_equals : Operand.parse "=" = .ok (.path ⟨"=", [.name "="]⟩) :=
  Operand.parse_path rfl rfl (by decide +kernel) (by decide +kernel)

/-- **A comparison without an operand is rejected iff the marks before the last one are no operator.**
Otherwise the last mark is the operand, as the path that it is read as. The marks that are no operator are
named, unless there is only one mark in all. -/
theorem parse_without_operand {p : String} {path : Path} {offset' : Option Int}
    (hp : parse p offset' = .ok ⟨false, path, .truthy⟩) {inner before after : List Char}
    (hblanks : ∀ s ∈ [inner, before, after], Text.AllBlank s) {o : List Char} {written : Operator}
    (hop : Operator.ofSpelling? (String.ofList o) = some written) (negated : Bool)
    (offset : Option Int) :
    (Operator.ofSpelling? (String.ofList o.dropLast) = none →
      parse (unfinished negated inner p before o after) offset =
        .error (.invalidDirective directive (unfinished negated inner p before o after)
          (if o.length = 1 then .conditionForm else .unknownOperator (String.ofList o.dropLast))
          offset)) ∧
    ∀ op, Operator.ofSpelling? (String.ofList o.dropLast) = some op →
      parse (unfinished negated inner p before o after) offset =
        .ok ⟨negated, path, .compare op (.path ⟨"=", [.name "="]⟩)⟩ := by
  obtain ⟨hrun, hne, hpath⟩ := run_of_parse_truthy hp
  obtain ⟨hmarks, hmin, -⟩ := Operator.marks_of_ofSpelling? hop
  obtain ⟨w, htext, hnegated, hwpath, hwo, hoperand⟩ :=
    exists_spelling_unfinished hrun negated hblanks o
  have hsplit := split?_unfinished (hwpath ▸ hne) hoperand (hwo ▸ hmarks)
    (hwo ▸ List.ne_nil_of_length_pos hmin)
  rw [htext, hnegated, hwpath, hwo, splitComparison?_operator hop] at hsplit
  unfold parse
  rw [hsplit]
  by_cases hone : o.length = 1
  · -- there is no mark before the only one
    have hnil : o.dropLast = [] := List.eq_nil_of_length_eq_zero (by simp [hone])
    rw [if_pos hone, hnil]
    refine ⟨fun _ => by rw [if_pos hone]; rfl, fun op h => ?_⟩
    cases h
  · rw [if_neg hone, if_neg hone]
    refine ⟨fun h => ?_, fun op h => ?_⟩
    · simp [hpath, h, Except.mapError, throw, throwThe, MonadExceptOf.throw]
    · simp [hpath, h, parse_equals, Except.mapError, pure, Except.pure]

/-- Behind a negated path, one sign of equality too many is the operand; and a spelling that its last mark
leaves without an operator is rejected. -/
theorem parse_without_operand_negated :
    parse " a['x <'] " none = .ok ⟨false, ⟨"a['x <']", [.name "a", .name "x <"]⟩, .truthy⟩ ∧
    Operator.ofSpelling? "===" = some .same ∧ Operator.ofSpelling? "!=" = some .different ∧
    parse "! a['x <'] ===\t" (some 4) = .ok ⟨true, ⟨"a['x <']", [.name "a", .name "x <"]⟩,
      .compare .same (.path ⟨"=", [.name "="]⟩)⟩ ∧
    parse " a['x <'] !=\t" (some 4) =
      .error (.invalidDirective directive " a['x <'] !=\t" (.unknownOperator "!") (some 4)) := by
  have hp : parse " a['x <'] " none =
      .ok ⟨false, ⟨"a['x <']", [.name "a", .name "x <"]⟩, .truthy⟩ := by
    have hsplit : split? (Text.trim " a['x <'] ".toList) = some ⟨false, "a['x <']", none⟩ := by
      decide +kernel
    exact parse_of_path hsplit (by decide +kernel)
  have hsame : Operator.ofSpelling? (String.ofList ['=', '=', '=']) = some .same := by decide
  have hdifferent : Operator.ofSpelling? (String.ofList ['!', '=']) = some .different := by decide
  have hblanks : ∀ s ∈ [[], [], ['\t']], Text.AllBlank s := by decide
  exact ⟨hp, hsame, hdifferent,
    (parse_without_operand hp hblanks hsame true (some 4)).2 .same (by decide),
    (parse_without_operand hp hblanks hdifferent false (some 4)).1 (by decide)⟩

/-- An **operator without an operand that is not rejected**. -/
theorem parse_atLeast_without_operand :
    parse "x" none = .ok ⟨false, ⟨"x", [.name "x"]⟩, .truthy⟩ ∧
    Operator.ofSpelling? ">=" = some .atLeast ∧
    ¬∃ fault, parse "x >=" (some 4) =
      .error (.invalidDirective directive "x >=" fault (some 4)) := by
  have hpath : Path.parse "x" = .ok ⟨"x", [.name "x"]⟩ := by decide +kernel
  have halone : split? (Text.trim "x".toList) = some ⟨false, "x", none⟩ := by decide +kernel
  have hsplit : split? (Text.trim "x >=".toList) = some ⟨false, "x", some (">", "=")⟩ := by
    decide +kernel
  have hgreater : Operator.ofSpelling? ">" = some .greater := by decide
  have hread := @parse_of_comparison _ _ _ _ _ (some 4) _ _ _ hsplit hpath hgreater parse_equals
  refine ⟨parse_of_path halone hpath, by decide, ?_⟩
  rintro ⟨fault, h⟩
  rw [hread] at h
  cases h

end Stencil.Condition
