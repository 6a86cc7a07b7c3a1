import Stencil.Condition.Basic
import Stencil.Proofs.Directive.PathText
import Stencil.Proofs.Path.Grammar
import Stencil.Proofs.Result

/-! # Spellings of conditions

A condition is read back from every spelling of it.

* `Condition.Spelling` is a comparison as it can be written: a path with or without a mark of negation
  before it, an operator and an operand, and blanks between them.
* `Condition.split?_text` and `Condition.split?_front`: the one way in which a spelling is split.
* `Condition.parse_spelling` is the result: path, operator and operand are what each of them is read as,
  and without operator and operand the condition asks whether the path counts as true. -/

namespace Stencil

/-! ## Operators and operands -/

/-- A mark is no blank. -/
theorem Condition.isBlank_of_isMark {c : Char} (h : isMark c = true) : Text.isBlank c = false := by
  simp only [isMark, Bool.or_eq_true, beq_iff_eq] at h
  rcases h with ((rfl | rfl) | rfl) | rfl <;> rfl

/-- A blank is no mark. -/
theorem Condition.isMark_of_isBlank {c : Char} (h : Text.isBlank c = true) : isMark c = false := by
  by_contra hmark
  rw [Bool.not_eq_false] at hmark
  rw [isBlank_of_isMark hmark] at h
  cases h

/-- What is read as an operator is one of eight spellings. -/
theorem Operator.eq_of_ofSpelling? {s : List Char} {op : Operator}
    (h : ofSpelling? (String.ofList s) = some op) :
    ∃ t ∈ ["==", "!=", "<", ">", "<=", ">=", "===", "!=="], s = t.toList := by
  have hcases : ∃ t ∈ ["==", "!=", "<", ">", "<=", ">=", "===", "!=="], String.ofList s = t := by
    unfold ofSpelling? at h
    split at h
    · rename_i heq
      exact ⟨_, by simp, beq_iff_eq.mp heq⟩
    · split at h
      · rename_i heq
        exact ⟨_, by simp, beq_iff_eq.mp heq⟩
      · have heq := List.find?_some h
        refine ⟨op.text, ?_, (beq_iff_eq.mp heq).symm⟩
        cases op <;> simp [text]
  obtain ⟨t, ht, hs⟩ := hcases
  exact ⟨t, ht, by rw [← hs, String.toList_ofList]⟩

/-- An operator is spelled with one to three marks. -/
theorem Operator.marks_of_ofSpelling? {s : List Char} {op : Operator}
    (h : ofSpelling? (String.ofList s) = some op) :
    (∀ c ∈ s, Condition.isMark c = true) ∧ 1 ≤ s.length ∧ s.length ≤ 3 := by
  obtain ⟨t, ht, rfl⟩ := eq_of_ofSpelling? h
  have hall : ∀ t ∈ ["==", "!=", "<", ">", "<=", ">=", "===", "!=="],
      t.toList.all Condition.isMark = true ∧ 1 ≤ t.toList.length ∧ t.toList.length ≤ 3 := by decide
  obtain ⟨hmarks, hlength⟩ := hall t ht
  exact ⟨List.all_eq_true.mp hmarks, hlength⟩

/-- A quote is no blank, no mark, and begins no keyword. -/
theorem Operand.quote_spec {q : Char} (hq : q ∈ quotes) :
    Text.isBlank q = false ∧ Condition.isMark q = false ∧ q ∉ ['t', 'f', 'n', 'u'] := by
  have hcases : q = '\x22' ∨ q = '\x27' ∨ q = '\x60' := by simpa [quotes] using hq
  rcases hcases with rfl | rfl | rfl <;> decide

/-- A keyword begins with one of four letters. -/
theorem Operand.head_of_keyword? {s : List Char} {v : Value} (h : keyword? s = some v) :
    ∃ c ∈ s.head?, c ∈ ['t', 'f', 'n', 'u'] := by
  have hs (t : String) (ht : String.ofList s = t) : s = t.toList := by rw [← ht, String.toList_ofList]
  unfold keyword? at h
  split at h
  · rename_i heq
    rw [hs _ heq]
    exact ⟨'t', rfl, by decide⟩
  · rename_i heq
    rw [hs _ heq]
    exact ⟨'f', rfl, by decide⟩
  · rename_i heq
    rw [hs _ heq]
    exact ⟨'n', rfl, by decide⟩
  · rename_i heq
    rw [hs _ heq]
    exact ⟨'u', rfl, by decide⟩
  · cases h

/-- A text in quotes has no blanks around it. -/
theorem Operand.bare_quoted {q : Char} (hq : q ∈ quotes) (inside : List Char) :
    Text.Bare (q :: (inside ++ [q])) := by
  have hquote : Text.Bare [q] := Text.Bare.singleton (quote_spec hq).1
  exact hquote.around (by simp) hquote (by simp) inside

/-- **A text in quotes is read as what stands between them.** -/
theorem Operand.parse_quoted {q : Char} (hq : q ∈ quotes) (inside : List Char) :
    parse (String.ofList (q :: (inside ++ [q]))) = .ok (.literal (.text (String.ofList inside))) := by
  obtain ⟨-, -, hletter⟩ := quote_spec hq
  have htrim : Text.trim (q :: (inside ++ [q])) = q :: (inside ++ [q]) :=
    Text.trim_of_bare (bare_quoted hq inside)
  have hkeyword : keyword? (q :: (inside ++ [q])) = none := by
    cases hk : keyword? (q :: (inside ++ [q])) with
    | none => rfl
    | some v =>
        obtain ⟨c, hc, hmem⟩ := head_of_keyword? hk
        cases hc
        exact absurd hmem hletter
  have hquoted : quotedText? (q :: (inside ++ [q])) = some inside := by
    simp [quotedText?, hq]
  unfold parse
  dsimp only
  rw [String.toList_ofList, htrim, hkeyword, hquoted]

/-- **What is no keyword, no text in quotes and no number is read as a path.** -/
theorem Operand.parse_path {token : String} {p : Path}
    (hkeyword : keyword? (Text.trim token.toList) = none)
    (hquoted : quotedText? (Text.trim token.toList) = none)
    (hnumber : Number.ofText? (String.ofList (Text.trim token.toList)) = .ok none)
    (hpath : Path.parse (String.ofList (Text.trim token.toList)) = .ok p) :
    parse token = .ok (.path p) := by
  unfold parse
  dsimp only
  rw [hkeyword, hquoted, hnumber, hpath]
  rfl

namespace Condition

/-- The text of an operand, and what it is read as, for an operand that is separated from its operator by
these blanks. -/
inductive IsOperandText (separation : List Char) : List Char → Operand → Prop where
  /-- A text in quotes of one kind, which does not hold the quote. -/
  | quoted (q : Char) (inside : List Char) (hq : q ∈ Operand.quotes) (hinside : q ∉ inside) :
      IsOperandText separation (q :: (inside ++ [q])) (.literal (.text (String.ofList inside)))
  /-- Anything without blanks that is read as an operand, and is not taken for a part of the operator. -/
  | token (t : List Char) (operand : Operand) (hne : t ≠ []) (hblank : ∀ c ∈ t, Text.isBlank c = false)
      (hmark : separation = [] → ∀ c ∈ t.head?, isMark c = false)
      (hread : Operand.parse (String.ofList t) = .ok operand) : IsOperandText separation t operand

variable {separation t : List Char} {operand : Operand}

namespace IsOperandText

/-- What the text of an operand is read as. -/
theorem parse_eq (h : IsOperandText separation t operand) :
    Operand.parse (String.ofList t) = .ok operand := by
  cases h with
  | quoted q inside hq _ => exact Operand.parse_quoted hq inside
  | token t operand _ _ _ hread => exact hread

/-- The text of an operand is taken for one. -/
theorem isOperand (h : IsOperandText separation t operand) : isOperand t = true := by
  cases h with
  | quoted q inside hq hinside =>
      have hcut := Text.cut?_append_cons hinside []
      simp [Condition.isOperand, hcut, hq]
  | token t operand hne hblank =>
      cases t with
      | nil => exact absurd rfl hne
      | cons c t =>
          have hall : (c :: t).all (!Text.isBlank ·) = true := by
            rw [List.all_eq_true]
            intro d hd
            rw [hblank d hd]
            rfl
          rw [Condition.isOperand, hall, Bool.or_true]

/-- The text of an operand is not empty. -/
theorem ne_nil (h : IsOperandText separation t operand) : t ≠ [] := by
  cases h with
  | quoted => exact List.cons_ne_nil _ _
  | token _ _ hne => exact hne

/-- The text of an operand has no blanks around it. -/
theorem bare (h : IsOperandText separation t operand) : Text.Bare t := by
  cases h with
  | quoted q inside hq _ => exact Operand.bare_quoted hq inside
  | token t operand _ hblank => exact Text.Bare.of_forall hblank

/-- The text of an operand does not go on the operator. -/
theorem not_mark (h : IsOperandText separation t operand) (hblanks : Text.AllBlank separation) :
    ∀ c ∈ (separation ++ t).head?, isMark c = false := by
  intro c hc
  cases separation with
  | cons b bs =>
      obtain rfl : b = c := by simpa using hc
      exact isMark_of_isBlank (hblanks b List.mem_cons_self)
  | nil =>
      cases h with
      | quoted q inside hq _ =>
          cases hc
          exact (Operand.quote_spec hq).2.1
      | token t operand _ _ hmark => exact hmark rfl c hc

end IsOperandText

/-- Of one to three marks, the most that leave something are taken. -/
theorem findSome?_marks {f : Nat → Option (String × String)} {n : Nat} {r : String × String}
    (hmin : 1 ≤ n) (hmax : n ≤ 3) (hmore : ∀ m, n < m → f m = none) (hf : f n = some r) :
    [3, 2, 1].findSome? f = some r := by
  have hn : n = 1 ∨ n = 2 ∨ n = 3 := by omega
  rcases hn with rfl | rfl | rfl
  · simp [hmore 3 (by omega), hmore 2 (by omega), hf]
  · simp [hmore 3 (by omega), hf]
  · simp [hf]

/-- **Operator and operand are told apart.** -/
theorem splitComparison?_append {o : List Char} (ho : ∀ c ∈ o, isMark c = true) (hmin : 1 ≤ o.length)
    (hmax : o.length ≤ 3) (hblanks : Text.AllBlank separation)
    (h : IsOperandText separation t operand) :
    splitComparison? (o ++ (separation ++ t)) = some (String.ofList o, String.ofList t) := by
  have hmarks : (o ++ (separation ++ t)).takeWhile isMark = o :=
    Text.takeWhile_run ho (h.not_mark hblanks)
  have hleft : Text.trimLeft (separation ++ t) = t := by
    rw [Text.trimLeft_append hblanks, Text.trimLeft_eq_self h.bare.head]
  unfold splitComparison?
  dsimp only
  rw [hmarks]
  refine findSome?_marks hmin hmax (fun m hm => ?_) ?_
  · -- there are no more marks
    have hmore : ¬m ≤ o.length := by omega
    simp [hmore]
  · simp [hleft, h.isOperand]

/-! ## Spellings -/

/-- A **spelling** of a comparison. -/
structure Spelling where
  /-- The blanks at the beginning. -/
  lead : List Char
  /-- Whether there is a mark of negation. -/
  negated : Bool
  /-- The blanks behind it. -/
  inner : List Char
  /-- The text of the path. -/
  path : List Char
  /-- The blanks before the operator. -/
  before : List Char
  /-- The operator. -/
  operator : List Char
  /-- The blanks behind it. -/
  after : List Char
  /-- The text of the operand. -/
  operand : List Char
  /-- The blanks at the end. -/
  tail : List Char
  /-- What is in the place of blanks is blank. -/
  blanks : ∀ s ∈ [lead, inner, before, after, tail], Text.AllBlank s
  /-- The path consists of bracket groups and of characters that may stand in it. -/
  run : Directive.IsRun inPath path

namespace Spelling

/-- The mark of negation and the blanks behind it, if there is one. -/
def mark (w : Spelling) : List Char := if w.negated then '!' :: w.inner else []

/-- The part before the operator. -/
def front (w : Spelling) : List Char := w.lead ++ (w.mark ++ (w.path ++ w.before))

/-- The whole text. -/
def text (w : Spelling) : List Char := w.front ++ (w.operator ++ (w.after ++ (w.operand ++ w.tail)))

end Spelling

/-- What is in the path of a condition is neither a blank nor a mark nor an opening bracket. -/
theorem inPath_iff {c : Char} :
    inPath c = true ↔ Text.isBlank c = false ∧ isMark c = false ∧ c ≠ '[' := by
  simp [inPath, and_assoc]

/-- A path does not begin with a blank or a mark. -/
theorem head_run {p : List Char} (h : Directive.IsRun inPath p) :
    ∀ c ∈ p.head?, Text.isBlank c = false ∧ isMark c = false := by
  intro c hc
  rcases h.head c hc with rfl | hin
  · exact ⟨rfl, rfl⟩
  · exact ⟨(inPath_iff.mp hin).1, (inPath_iff.mp hin).2.1⟩

/-- A path has no blanks around it. -/
theorem bare_run {p : List Char} (h : Directive.IsRun inPath p) : Text.Bare p :=
  h.bare fun _ hin => (inPath_iff.mp hin).1

/-- A blank or a mark is the end of a path. -/
theorem not_inPath {c : Char} (h : Text.isBlank c = true ∨ isMark c = true) :
    c ≠ '[' ∧ inPath c = false := by
  constructor
  · rintro rfl
    rcases h with h | h <;> cases h
  · by_contra hin
    obtain ⟨hblank, hmark, -⟩ := inPath_iff.mp (Bool.not_eq_false _ ▸ hin)
    rcases h with h | h
    · rw [hblank] at h
      cases h
    · rw [hmark] at h
      cases h

variable {negated : Bool} {inner p rest : List Char}

/-- What a text is split into, told from where its path stands. -/
theorem split?_of_path {s : List Char} (hmark : (s.head? == some '!') = negated)
    (hs : (if negated then Text.trimLeft (s.drop 1) else s) = p ++ rest)
    (hpath : Directive.pathText inPath (p ++ rest) = (p, rest)) (hne : p ≠ []) :
    split? s = if rest.isEmpty then some ⟨negated, String.ofList p, none⟩
      else (splitComparison? (Text.trimLeft rest)).map fun c => ⟨negated, String.ofList p, some c⟩ := by
  rw [split?, hmark, hs, hpath]
  dsimp only
  rw [if_neg (by simpa using hne)]

/-- **A path is told from the mark before it and from what is behind it.** -/
theorem split?_append (hinner : Text.AllBlank inner) (hp : Directive.IsRun inPath p) (hne : p ≠ [])
    (hrest : ∀ c ∈ rest.head?, c ≠ '[' ∧ inPath c = false) :
    split? ((if negated then '!' :: inner else []) ++ (p ++ rest)) =
      if rest.isEmpty then some ⟨negated, String.ofList p, none⟩
      else (splitComparison? (Text.trimLeft rest)).map fun c => ⟨negated, String.ofList p, some c⟩ := by
  have hhead : ∀ c ∈ (p ++ rest).head?, Text.isBlank c = false ∧ isMark c = false := by
    rw [List.head?_append_of_ne_nil _ hne]
    exact head_run hp
  refine split?_of_path ?_ ?_ (hp.pathText_append hrest) hne
  · cases negated with
    | true => rfl
    | false =>
        -- the path itself does not begin with the mark
        show ((p ++ rest).head? == some '!') = false
        rw [beq_eq_false_iff_ne]
        intro h
        cases (hhead '!' h).2
  · cases negated with
    | true =>
        show Text.trimLeft (inner ++ (p ++ rest)) = p ++ rest
        rw [Text.trimLeft_append hinner]
        exact Text.trimLeft_eq_self fun c hc => (hhead c hc).1
    | false => rfl

namespace Spelling

variable {w : Spelling}

/-- The text of a path that is read is not empty. -/
theorem path_ne_nil {path : Path} (hpath : Path.parse (String.ofList w.path) = .ok path) :
    w.path ≠ [] := by
  intro hnil
  rw [hnil] at hpath
  cases hpath

/-- Whatever is put between a path with its mark and a bare text, the whole is bare. -/
theorem bare_append (hne : w.path ≠ []) {s : List Char} (hs : Text.Bare s) (hsne : s ≠ [])
    (between : List Char) : Text.Bare (w.mark ++ (w.path ++ (between ++ s))) := by
  have hpath := (bare_run w.run).around hne hs hsne between
  rw [mark]
  split
  · have hmark : Text.Bare ['!'] := Text.Bare.singleton rfl
    exact hmark.around (by simp) hpath (by simp [hne]) w.inner
  · exact hpath

/-- A path with its mark is bare. -/
theorem bare_path (hne : w.path ≠ []) : Text.Bare (w.mark ++ w.path) := by
  rw [mark]
  split
  · have hmark : Text.Bare ['!'] := Text.Bare.singleton rfl
    exact hmark.around (by simp) (bare_run w.run) hne w.inner
  · exact bare_run w.run

/-- **How the part before the operator is split.** -/
theorem split?_front (hne : w.path ≠ []) :
    split? (Text.trim w.front) = some ⟨w.negated, String.ofList w.path, none⟩ := by
  have htrim : Text.trim w.front = w.mark ++ (w.path ++ []) := by
    have hlead := w.blanks w.lead (by simp)
    have hbefore := w.blanks w.before (by simp)
    rw [front, ← List.append_assoc, ← List.append_assoc, List.append_assoc w.lead, List.append_nil]
    exact Text.trim_append hlead (bare_path hne) hbefore
  rw [htrim, mark, split?_append (w.blanks w.inner (by simp)) w.run hne (by simp)]
  rfl

/-- A spelling is trimmed to its mark, its path, its operator and its operand. -/
theorem trim_text (hne : w.path ≠ []) {operand : Operand}
    (hoperand : IsOperandText w.after w.operand operand) :
    Text.trim w.text =
      w.mark ++ (w.path ++ (w.before ++ (w.operator ++ (w.after ++ w.operand)))) := by
  have hbare := bare_append hne hoperand.bare hoperand.ne_nil (w.before ++ (w.operator ++ w.after))
  have htrim := Text.trim_append (w.blanks w.lead (by simp)) hbare (w.blanks w.tail (by simp))
  simp only [List.append_assoc] at htrim
  simp only [text, front, List.append_assoc]
  exact htrim

/-- Behind the path there is a blank or the operator, so the path is not read on. -/
theorem head_behind {m : Char} {ms rest : List Char} (hm : isMark m = true) :
    ∀ c ∈ (w.before ++ m :: (ms ++ rest)).head?, c ≠ '[' ∧ inPath c = false := by
  intro c hc
  cases hbefore : w.before with
  | nil =>
      rw [hbefore] at hc
      obtain rfl : m = c := by simpa using hc
      exact not_inPath (Or.inr hm)
  | cons b bs =>
      rw [hbefore] at hc
      obtain rfl : b = c := by simpa using hc
      exact not_inPath (Or.inl (w.blanks w.before (by simp) b (hbefore ▸ List.mem_cons_self)))

/-- Trimming what is behind the path leaves the operator and what follows. -/
theorem trimLeft_behind {m : Char} {ms rest : List Char} (hm : isMark m = true) :
    Text.trimLeft (w.before ++ m :: (ms ++ rest)) = m :: (ms ++ rest) := by
  rw [Text.trimLeft_append (w.blanks w.before (by simp))]
  refine Text.trimLeft_eq_self fun c hc => ?_
  obtain rfl : m = c := by simpa using hc
  exact isBlank_of_isMark hm

/-- **How a spelling is split.** -/
theorem split?_text (hne : w.path ≠ []) {op : Operator}
    (hop : Operator.ofSpelling? (String.ofList w.operator) = some op) {operand : Operand}
    (hoperand : IsOperandText w.after w.operand operand) :
    split? (Text.trim w.text) = some ⟨w.negated, String.ofList w.path,
      some (String.ofList w.operator, String.ofList w.operand)⟩ := by
  obtain ⟨hmarks, hmin, hmax⟩ := Operator.marks_of_ofSpelling? hop
  obtain ⟨m, ms, ho⟩ : ∃ m ms, w.operator = m :: ms :=
    List.exists_cons_of_ne_nil (List.ne_nil_of_length_pos hmin)
  have hm : isMark m = true := hmarks m (ho ▸ List.mem_cons_self)
  have hcomparison := splitComparison?_append hmarks hmin hmax (w.blanks w.after (by simp)) hoperand
  rw [ho] at hcomparison
  have hrest : (w.before ++ m :: (ms ++ (w.after ++ w.operand))).isEmpty = false := by simp
  rw [trim_text hne hoperand, mark, ho, List.cons_append,
    split?_append (w.blanks w.inner (by simp)) w.run hne (head_behind hm), hrest, trimLeft_behind hm,
    ← List.cons_append, hcomparison]
  rfl

end Spelling

/-- A condition that is split into a path is read if the path is. -/
theorem parse_of_path {arguments p : String} {offset : Option Int} {path : Path}
    (hsplit : split? (Text.trim arguments.toList) = some ⟨negated, p, none⟩)
    (hpath : Path.parse p = .ok path) : parse arguments offset = .ok ⟨negated, path, .truthy⟩ := by
  rw [parse, hsplit]
  simp [hpath, Except.mapError, pure, Except.pure]

/-- A condition that is split into a comparison is read if its parts are. -/
theorem parse_of_comparison {arguments p o t : String} {offset : Option Int} {path : Path}
    {op : Operator} {operand : Operand}
    (hsplit : split? (Text.trim arguments.toList) = some ⟨negated, p, some (o, t)⟩)
    (hpath : Path.parse p = .ok path) (hop : Operator.ofSpelling? o = some op)
    (hoperand : Operand.parse t = .ok operand) :
    parse arguments offset = .ok ⟨negated, path, .compare op operand⟩ := by
  rw [parse, hsplit]
  simp [hpath, hop, hoperand, Except.mapError, pure, Except.pure]

/-- **Every spelling of a condition is read back.** The path, the operator and the operand are what each of
them is read as for itself; and the part before the operator asks whether the path, negated or not, counts
as true. -/
theorem parse_spelling {w : Spelling} {path : Path} {op : Operator} {operand : Operand}
    (hpath : Path.parse (String.ofList w.path) = .ok path)
    (hop : Operator.ofSpelling? (String.ofList w.operator) = some op)
    (hoperand : IsOperandText w.after w.operand operand) (offset : Option Int) :
    Operand.parse (String.ofList w.operand) = .ok operand ∧
    parse (String.ofList w.text) offset = .ok ⟨w.negated, path, .compare op operand⟩ ∧
    parse (String.ofList w.front) offset = .ok ⟨w.negated, path, .truthy⟩ := by
  have hne := Spelling.path_ne_nil hpath
  refine ⟨hoperand.parse_eq, ?_, ?_⟩
  · rw [parse, String.toList_ofList, Spelling.split?_text hne hop hoperand]
    simp [hpath, hop, hoperand.parse_eq, Except.mapError, pure, Except.pure]
  · rw [parse, String.toList_ofList, Spelling.split?_front hne]
    simp [hpath, Except.mapError, pure, Except.pure]

/-- A negated comparison with blanks all over it, one of them and an operator within brackets, and with an
operator character at the beginning of its operand. -/
def crowded : Spelling where
  lead := " ".toList
  negated := true
  inner := "\t".toList
  path := "a['x <']".toList
  before := " ".toList
  operator := ">=".toList
  after := "  ".toList
  operand := "<b".toList
  tail := "\n".toList
  blanks := by decide
  run := .char (by decide) rfl (@Directive.IsRun.group inPath "'x <'".toList [] (by decide) .nil)

theorem parse_spelling_crowded :
    Path.parse (String.ofList crowded.path) = .ok ⟨"a['x <']", [.name "a", .name "x <"]⟩ ∧
    Operator.ofSpelling? (String.ofList crowded.operator) = some .atLeast ∧
    IsOperandText crowded.after crowded.operand (.path ⟨"<b", [.name "<b"]⟩) ∧
    Operand.parse (String.ofList crowded.operand) = .ok (.path ⟨"<b", [.name "<b"]⟩) ∧
    parse " !\ta['x <'] >=  <b\n" none = .ok ⟨true, ⟨"a['x <']", [.name "a", .name "x <"]⟩,
      .compare .atLeast (.path ⟨"<b", [.name "<b"]⟩)⟩ ∧
    parse " !\ta['x <'] " none = .ok ⟨true, ⟨"a['x <']", [.name "a", .name "x <"]⟩, .truthy⟩ := by
  have hpath : Path.parse (String.ofList crowded.path) =
      .ok ⟨"a['x <']", [.name "a", .name "x <"]⟩ := by decide +kernel
  have hop : Operator.ofSpelling? (String.ofList crowded.operator) = some .atLeast := by decide +kernel
  have hplain : ∀ c ∈ crowded.operand, Text.isBlank c = false := by
    intro c hc
    rcases List.mem_pair.mp hc with rfl | rfl <;> rfl
  have hoperand : IsOperandText crowded.after crowded.operand (.path ⟨"<b", [.name "<b"]⟩) :=
    .token _ _ (by decide) hplain (fun h => by cases h)
      (Operand.parse_path rfl rfl (by decide +kernel) (by decide +kernel))
  exact ⟨hpath, hop, hoperand, parse_spelling hpath hop hoperand none⟩

end Condition

end Stencil
