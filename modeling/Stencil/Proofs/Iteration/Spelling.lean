import Stencil.Directive.Iteration
import Stencil.Proofs.Directive.PathText
import Stencil.Proofs.Path.Reading
import Stencil.Proofs.Result
import Stencil.Proofs.Text.Words

/-! # Spellings of iterations

The header of an iteration is a path, the word "as", and a name, or two names with the word "to" between
them. No word is reserved, and brackets in the path may hold anything.

* `Iteration.Spelling` is a syntax tree of such a header, with the blanks that separate its words.
* `Iteration.Spelling.text_injective`: a text has at most one spelling.
* `Iteration.split?_text` and `Iteration.exists_spelling`: a text is split iff it has one.
* `Iteration.parse_spelled` is the result: a header is read as its spelling says, or reported. -/

namespace Stencil.Iteration

/-! ## Spellings -/

/-- What separates two words: **a blank or more**. -/
structure Gap where
  /-- The blanks. -/
  blanks : List Char
  /-- There is at least one. -/
  ne_nil : blanks ≠ []
  /-- There is nothing else. -/
  all : Text.AllBlank blanks

/-- A **name**: word characters, at least one. -/
structure Name where
  /-- The characters. -/
  word : List Char
  /-- There is at least one. -/
  ne_nil : word ≠ []
  /-- They are word characters. -/
  all : ∀ c ∈ word, Text.isWord c = true

/-- The **names** of an iteration. -/
inductive Names where
  /-- A name for the value. -/
  | value (value : Name)
  /-- A name for the key, the word "to", and a name for the value. -/
  | keyed (key : Name) (before after : Gap) (value : Name)

/-- A **spelling** of an iteration. -/
structure Spelling where
  /-- The text of the path. -/
  collection : List Char
  /-- It is not empty. -/
  ne_nil : collection ≠ []
  /-- It consists of bracket groups and of characters that are neither blanks nor opening brackets. -/
  run : Directive.IsRun inPath collection
  /-- What separates it from the word "as". -/
  before : Gap
  /-- What separates the word from the names. -/
  after : Gap
  /-- The names. -/
  names : Names

/-- The text of the names. -/
def Names.text : Names → List Char
  | .value v => v.word
  | .keyed k before after v => k.word ++ (before.blanks ++ ('t' :: 'o' :: (after.blanks ++ v.word)))

/-- The name of the key, if there is one. -/
def Names.keyName : Names → Option String
  | .value _ => none
  | .keyed k _ _ _ => some (String.ofList k.word)

/-- The name of the value. -/
def Names.valueName : Names → String
  | .value v => String.ofList v.word
  | .keyed _ _ _ v => String.ofList v.word

/-- The text of a spelling. -/
def Spelling.text (w : Spelling) : List Char :=
  w.collection ++ (w.before.blanks ++ ('a' :: 's' :: (w.after.blanks ++ w.names.text)))

/-! ## What its parts begin with -/

/-- A gap begins with a blank, whatever stands behind it. -/
theorem Gap.head (g : Gap) (s : List Char) : ∀ c ∈ (g.blanks ++ s).head?, Text.isBlank c = true := by
  intro c hc
  rw [List.head?_append_of_ne_nil _ g.ne_nil] at hc
  exact g.all c (List.mem_of_mem_head? hc)

/-- A name holds no blank. -/
theorem Name.isBlank (n : Name) : ∀ c ∈ n.word, Text.isBlank c = false :=
  fun c hc => Text.isBlank_of_isWord (n.all c hc)

/-- A name does not begin with a blank, whatever stands behind it. -/
theorem Name.head (n : Name) (s : List Char) : ∀ c ∈ (n.word ++ s).head?, Text.isBlank c = false := by
  intro c hc
  rw [List.head?_append_of_ne_nil _ n.ne_nil] at hc
  exact n.isBlank c (List.mem_of_mem_head? hc)

/-- Names do not begin with a blank. -/
theorem Names.head (n : Names) : ∀ c ∈ n.text.head?, Text.isBlank c = false := by
  cases n with
  | value v => simpa [text] using v.head []
  | keyed k before after v => exact k.head _

/-- Where blanks or nothing begin, a path and a name end. -/
theorem inPath_eq_false {c : Char} (h : Text.isBlank c = true) : c ≠ '[' ∧ inPath c = false := by
  refine ⟨?_, by simp [inPath, h]⟩
  rintro rfl
  cases h

/-- What is in the path of an iteration is no blank. -/
theorem isBlank_of_inPath {c : Char} (h : inPath c = true) : Text.isBlank c = false := by
  simp only [inPath, Bool.not_eq_true', Bool.or_eq_false_iff] at h
  exact h.1

/-! ## A text has at most one spelling -/

/-- Gaps are told by their text, when a word stands behind them. -/
theorem gap_unique {g h : Gap} {s t : List Char} (hs : ∀ c ∈ s.head?, Text.isBlank c = false)
    (ht : ∀ c ∈ t.head?, Text.isBlank c = false) (heq : g.blanks ++ s = h.blanks ++ t) :
    g = h ∧ s = t := by
  obtain ⟨hblanks, hrest⟩ := Text.run_unique g.all hs h.all ht heq
  cases g
  cases h
  cases hblanks
  exact ⟨rfl, hrest⟩

/-- Names are told by their text, when nothing or a gap stands behind them. -/
theorem name_unique {m n : Name} {s t : List Char} (hs : ∀ c ∈ s.head?, Text.isBlank c = true)
    (ht : ∀ c ∈ t.head?, Text.isBlank c = true) (heq : m.word ++ s = n.word ++ t) :
    m = n ∧ s = t := by
  have hplain (n : Name) : ∀ c ∈ n.word, (!Text.isBlank c) = true := fun c hc => by
    rw [n.isBlank c hc]
    rfl
  obtain ⟨hword, hrest⟩ := Text.run_unique (p := (!Text.isBlank ·)) (hplain m)
    (fun c hc => by rw [hs c hc]; rfl) (hplain n) (fun c hc => by rw [ht c hc]; rfl) heq
  cases m
  cases n
  cases hword
  exact ⟨rfl, hrest⟩

/-- **Names are told by their text**: with a key there is a gap behind the first one. -/
theorem Names.text_injective : Function.Injective Names.text := by
  intro m n h
  have hnil : ∀ c ∈ ([] : List Char).head?, Text.isBlank c = true := by simp
  cases m with
  | value v =>
      cases n with
      | value v' =>
          have heq : v.word ++ [] = v'.word ++ [] := by simpa [text] using h
          rw [(name_unique hnil hnil heq).1]
      | keyed k before after v' =>
          have heq : v.word ++ [] =
              k.word ++ (before.blanks ++ 't' :: 'o' :: (after.blanks ++ v'.word)) := by
            simpa [text] using h
          have hgap := (name_unique hnil (before.head _) heq).2
          simp [before.ne_nil] at hgap
  | keyed k before after v =>
      cases n with
      | value v' =>
          have heq : k.word ++ (before.blanks ++ 't' :: 'o' :: (after.blanks ++ v.word)) =
              v'.word ++ [] := by
            simpa [text] using h
          have hgap := (name_unique (before.head _) hnil heq).2
          simp [before.ne_nil] at hgap
      | keyed k' before' after' v' =>
          obtain ⟨hk, hto⟩ := name_unique (before.head _) (before'.head _) h
          obtain ⟨hbefore, hto⟩ := gap_unique (fun c hc => by cases hc; rfl)
            (fun c hc => by cases hc; rfl) hto
          have hvalue := (List.cons.inj (List.cons.inj hto).2).2
          obtain ⟨hafter, hvalue⟩ := gap_unique (by simpa using v.head []) (by simpa using v'.head [])
            hvalue
          have heq : v.word ++ [] = v'.word ++ [] := by simpa using hvalue
          rw [hk, hbefore, hafter, (name_unique hnil hnil heq).1]

namespace Spelling

/-- The path of a spelling is told from what is behind it. -/
theorem pathText_text (w : Spelling) : Directive.pathText inPath w.text =
    (w.collection, w.before.blanks ++ ('a' :: 's' :: (w.after.blanks ++ w.names.text))) :=
  w.run.pathText_append fun c hc => inPath_eq_false (w.before.head _ c hc)

/-- **A text has at most one spelling.** -/
theorem text_injective : Function.Injective Spelling.text := by
  intro w x h
  have hpath := congrArg (Directive.pathText inPath) h
  rw [w.pathText_text, x.pathText_text] at hpath
  obtain ⟨hcollection, hrest⟩ := Prod.mk.inj hpath
  obtain ⟨hbefore, hrest⟩ := gap_unique (fun c hc => by cases hc; rfl) (fun c hc => by cases hc; rfl) hrest
  have hnames := (List.cons.inj (List.cons.inj hrest).2).2
  obtain ⟨hafter, hnames⟩ := gap_unique w.names.head x.names.head hnames
  have hnames := Names.text_injective hnames
  cases w
  cases x
  cases hcollection
  cases hbefore
  cases hafter
  cases hnames
  rfl

end Spelling

/-! ## Splitting -/

/-- The words of the names, behind a gap. -/
def Names.words : Names → List (List Char)
  | .value v => [v.word]
  | .keyed k _ _ v => [k.word, ['t', 'o'], v.word]

/-- A gap, a word, and what begins with a gap: the first word is this one. -/
theorem Gap.words_append (g : Gap) {w rest : List Char} (hne : w ≠ [])
    (hw : ∀ c ∈ w, Text.isBlank c = false) (hrest : ∀ c ∈ rest.head?, Text.isBlank c = true) :
    Text.words (g.blanks ++ (w ++ rest)) = w :: Text.words rest :=
  Text.words_append_word g.all hne hw hrest

/-- A name at the end is the last word. -/
theorem Gap.words_name (g : Gap) (n : Name) : Text.words (g.blanks ++ n.word) = [n.word] := by
  have hwords := @Gap.words_append g n.word [] n.ne_nil n.isBlank (by simp)
  rw [List.append_nil] at hwords
  rw [hwords]
  rfl

/-- The words of names that are separated from what is before. -/
theorem Gap.words_names (g : Gap) (n : Names) : Text.words (g.blanks ++ n.text) = n.words := by
  cases n with
  | value v => exact g.words_name v
  | keyed k before after v =>
      have hto : Text.words (before.blanks ++ (['t', 'o'] ++ (after.blanks ++ v.word))) =
          ['t', 'o'] :: Text.words (after.blanks ++ v.word) :=
        before.words_append (by simp) (by simp [Text.isBlank]) (after.head _)
      rw [Names.text, g.words_append k.ne_nil k.isBlank (before.head _)]
      show _ :: Text.words (before.blanks ++ (['t', 'o'] ++ (after.blanks ++ v.word))) = _
      rw [hto, after.words_name]
      rfl

/-- A name is one. -/
theorem Name.isName (n : Name) : Iteration.isName n.word = true := by
  rw [Iteration.isName, Bool.and_eq_true, Bool.not_eq_true', List.isEmpty_eq_false_iff]
  exact ⟨n.ne_nil, List.all_eq_true.mpr n.all⟩

/-- The names are read off their words. -/
theorem Names.names?_words (n : Names) :
    names? (['a', 's'] :: n.words) = some (n.keyName, n.valueName) := by
  cases n with
  | value v => simp [words, names?, v.isName, keyName, valueName]
  | keyed k before after v => simp [words, names?, k.isName, v.isName, keyName, valueName]

/-- **How the text of a spelling is split.** -/
theorem split?_text (w : Spelling) :
    split? w.text = some (String.ofList w.collection, w.names.keyName, w.names.valueName) := by
  have hwords : Text.words (w.before.blanks ++ (['a', 's'] ++ (w.after.blanks ++ w.names.text))) =
      ['a', 's'] :: w.names.words := by
    rw [w.before.words_append (by simp) (by simp [Text.isBlank]) (w.after.head _), w.after.words_names]
  have hwords : Text.words (w.before.blanks ++ 'a' :: 's' :: (w.after.blanks ++ w.names.text)) =
      ['a', 's'] :: w.names.words := hwords
  rw [split?, w.pathText_text]
  dsimp only
  rw [hwords, w.names.names?_words, if_neg (by simpa using w.ne_nil)]
  rfl

/-- What begins with a blank and has words begins with a gap and the first word. -/
theorem exists_gap {s v : List Char} {vs : List (List Char)} (h : Text.words s = v :: vs)
    (hs : ∀ c ∈ s.head?, Text.isBlank c = true) :
    ∃ (g : Gap) (rest : List Char), (∀ c ∈ rest.head?, Text.isBlank c = true) ∧
      s = g.blanks ++ (v ++ rest) ∧ Text.words rest = vs := by
  obtain ⟨lead, rest, hlead, hne, hv, hrest, rfl, hwords⟩ := Text.exists_of_words_eq_cons h
  refine ⟨⟨lead, ?_, hlead⟩, rest, hrest, rfl, hwords⟩
  rintro rfl
  -- the word itself would begin with a blank
  obtain ⟨c, v, rfl⟩ := List.exists_cons_of_ne_nil hne
  have hblank := hs c rfl
  rw [hv c List.mem_cons_self] at hblank
  cases hblank

/-- What is taken for a name is one. -/
theorem exists_name {v : List Char} (h : isName v = true) : ∃ n : Name, n.word = v := by
  rw [isName, Bool.and_eq_true, Bool.not_eq_true', List.isEmpty_eq_false_iff] at h
  exact ⟨⟨v, h.1, List.all_eq_true.mp h.2⟩, rfl⟩

/-- What is behind the word "as", if names are read off it. -/
theorem exists_names {s : List Char} {key : Option String} {value : String}
    (hs : ∀ c ∈ s.head?, Text.isBlank c = true)
    (h : names? (['a', 's'] :: Text.words s) = some (key, value)) :
    ∃ (g : Gap) (n : Names) (tail : List Char), Text.AllBlank tail ∧
      s = g.blanks ++ (n.text ++ tail) ∧ n.keyName = key ∧ n.valueName = value := by
  unfold names? at h
  split at h
  · rename_i v hwords
    split at h
    · rename_i hname
      cases h
      obtain ⟨g, tail, -, rfl, htail⟩ := exists_gap (List.cons.inj hwords).2 hs
      obtain ⟨n, rfl⟩ := exists_name hname
      exact ⟨g, .value n, tail, Text.allBlank_of_words_eq_nil htail, rfl, rfl, rfl⟩
    · cases h
  · rename_i k v hwords
    split at h
    · rename_i hnames
      cases h
      obtain ⟨hkey, hvalue⟩ := Bool.and_eq_true_iff.mp hnames
      obtain ⟨g, rest, hrest, rfl, hto⟩ := exists_gap (List.cons.inj hwords).2 hs
      obtain ⟨before, behind, hbehind, rfl, hlast⟩ := exists_gap hto hrest
      obtain ⟨after, tail, -, rfl, htail⟩ := exists_gap hlast hbehind
      obtain ⟨k, rfl⟩ := exists_name hkey
      obtain ⟨v, rfl⟩ := exists_name hvalue
      refine ⟨g, .keyed k before after v, tail, Text.allBlank_of_words_eq_nil htail, ?_, rfl, rfl⟩
      simp [Names.text]
    · cases h
  · cases h

/-- **What is split has a spelling**, if there are no blanks behind it. -/
theorem exists_spelling {s : List Char} {path : String} {key : Option String} {value : String}
    (hs : Text.Bare s) (h : split? s = some (path, key, value)) :
    ∃ w : Spelling, w.text = s ∧ String.ofList w.collection = path ∧ w.names.keyName = key ∧
      w.names.valueName = value := by
  have hrun := Directive.isRun_pathText inPath s
  have happend := Directive.pathText_append inPath s
  have hstop (rest : List Char) := @Directive.head_pathText inPath s 'a' rest
  obtain ⟨rfl, hne, hnames⟩ := of_split? h
  generalize (Directive.pathText inPath s).1 = collection at *
  generalize (Directive.pathText inPath s).2 = rest at *
  -- the first word is the word "as", and it is not a part of the path
  obtain ⟨ws, hwords⟩ : ∃ ws, Text.words rest = ['a', 's'] :: ws := by
    unfold names? at hnames
    split at hnames <;> first | exact ⟨_, ‹_›⟩ | cases hnames
  obtain ⟨lead, behind, hlead, -, -, hbehind, hrest, hws⟩ := Text.exists_of_words_eq_cons hwords
  have hgap : lead ≠ [] := by
    rintro rfl
    have hstop := hstop _ hrest
    simp [inPath, Text.isBlank] at hstop
  rw [hwords, ← hws] at hnames
  obtain ⟨after, n, tail, htail, rfl, hkey, hvalue⟩ := exists_names hbehind hnames
  have hend : tail = [] := by
    refine Text.Bare.eq_nil_of_append
      (s := collection ++ (lead ++ ('a' :: 's' :: (after.blanks ++ n.text)))) ?_ htail
    have htext : collection ++ (lead ++ ('a' :: 's' :: (after.blanks ++ n.text))) ++ tail = s := by
      rw [← happend, hrest]
      simp
    rw [htext]
    exact hs
  refine ⟨⟨collection, hne, hrun, ⟨lead, hgap, hlead⟩, after, n⟩, ?_, rfl, hkey, hvalue⟩
  rw [← happend, hrest, hend]
  simp [Spelling.text]

/-! ## Reading -/

/-- The path of a spelling has no blanks around it. -/
theorem Spelling.trim_collection (w : Spelling) : Text.trim w.collection = w.collection :=
  Text.trim_of_bare (w.run.bare fun _ => isBlank_of_inPath)

/-- **What is read as an iteration is spelled.** -/
theorem parse_eq_ok_iff_spelled {arguments : String} {offset : Option Int} {it : Iteration} :
    parse arguments offset = .ok it ↔ ∃ w : Spelling, w.text = Text.trim arguments.toList ∧
      Path.parse (String.ofList w.collection) = .ok it.collection ∧ w.names.keyName = it.keyName ∧
      w.names.valueName = it.valueName := by
  constructor
  · intro h
    unfold parse at h
    split at h
    · cases h
    · rename_i path key value hsplit
      obtain ⟨collection, hpath, he⟩ := bind_eq_ok_iff.mp h
      cases he
      obtain ⟨-, -, -, -, hbare, -⟩ := Text.exists_trim arguments.toList
      obtain ⟨w, htext, rfl, hkey, hvalue⟩ := exists_spelling hbare hsplit
      exact ⟨w, htext, mapError_eq_ok_iff.mp hpath, hkey, hvalue⟩
  · rintro ⟨w, htext, hpath, hkey, hvalue⟩
    rw [parse, ← htext, split?_text]
    simp [hpath, hkey, hvalue, Except.mapError, pure, Except.pure]

/-- What is not read as an iteration is reported, if no index is too long. -/
theorem exists_fault_of_not_spelled {arguments : String} {offset : Option Int}
    (hfit : Path.IndexesFit (Text.trim arguments.toList))
    (h : ¬∃ (w : Spelling) (path : Path), w.text = Text.trim arguments.toList ∧
      Path.parse (String.ofList w.collection) = .ok path) :
    ∃ fault, parse arguments offset = .error (.invalidDirective directive arguments fault offset) := by
  unfold parse
  split
  · exact ⟨_, rfl⟩
  · rename_i path key value hsplit
    obtain ⟨-, -, -, -, hbare, -⟩ := Text.exists_trim arguments.toList
    obtain ⟨w, htext, rfl, -, -⟩ := exists_spelling hbare hsplit
    have hcollection : Path.IndexesFit (Text.trim (String.ofList w.collection).toList) := by
      rw [String.toList_ofList, w.trim_collection]
      exact hfit.of_isPrefix ⟨_, htext⟩
    rcases Path.exists_phrase_or_fault hcollection with ⟨p, -, hread⟩ | ⟨fault, hread⟩
    · exact absurd ⟨w, _, htext, hread⟩ h
    · rw [hread]
      exact ⟨_, rfl⟩

/-- **Iterations are read by their spelling.** A header whose indexes are not too long is read as what its
spelling says: the path that is read off its first part, and the names. A text has at most one spelling,
whatever words it is made of, and one without a spelling whose path is read is reported. -/
theorem parse_spelled {arguments : String} (hfit : Path.IndexesFit (Text.trim arguments.toList))
    (offset : Option Int) :
    (∀ it, parse arguments offset = .ok it ↔ ∃ w : Spelling, w.text = Text.trim arguments.toList ∧
      Path.parse (String.ofList w.collection) = .ok it.collection ∧ w.names.keyName = it.keyName ∧
      w.names.valueName = it.valueName) ∧
    Function.Injective Spelling.text ∧
    ((¬∃ (w : Spelling) (path : Path), w.text = Text.trim arguments.toList ∧
      Path.parse (String.ofList w.collection) = .ok path) →
      ∃ fault, parse arguments offset =
        .error (.invalidDirective directive arguments fault offset)) :=
  ⟨fun _ => parse_eq_ok_iff_spelled, Spelling.text_injective, exists_fault_of_not_spelled hfit⟩

/-- A spelling whose path and whose names are made of the two words themselves. -/
def reserved : Spelling where
  collection := "as['x as y'].to".toList
  ne_nil := by decide
  run := .char (by decide) rfl (.char (by decide) rfl (@Directive.IsRun.group inPath "'x as y'".toList
    ".to".toList (by decide) (.char (by decide) rfl (.char (by decide) rfl
      (.char (by decide) rfl .nil)))))
  before := ⟨"  ".toList, by decide, by decide⟩
  after := ⟨" ".toList, by decide, by decide⟩
  names := .keyed ⟨"as".toList, by decide, List.all_eq_true.mp (by decide)⟩
    ⟨"\t".toList, by decide, by decide⟩ ⟨" ".toList, by decide, by decide⟩
    ⟨"to".toList, by decide, List.all_eq_true.mp (by decide)⟩

theorem parse_spelled_reserved :
    Path.IndexesFit (Text.trim " as['x as y'].to  as as\tto to\n".toList) ∧
    parse " as['x as y'].to  as as\tto to\n" (some 4) =
      .ok ⟨⟨"as['x as y'].to", [.name "as", .name "x as y", .name "to"]⟩, "to", some "as"⟩ := by
  have hfit : Path.IndexesFit (Text.trim " as['x as y'].to  as as\tto to\n".toList) :=
    Path.indexesFit_of_length_le (by decide +kernel)
  exact ⟨hfit, ((parse_spelled hfit (some 4)).1 _).mpr
    ⟨reserved, by decide +kernel, by decide +kernel, by decide, by decide⟩⟩

end Stencil.Iteration
