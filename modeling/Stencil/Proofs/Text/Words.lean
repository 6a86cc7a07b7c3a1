import Mathlib.Data.List.SplitBy
import Stencil.Proofs.Text.Blank
import Stencil.Text.Word

/-! # The words of a text

Main statements: the words of a text are its first word and the words of what follows
(`words_append_word`), a text with words is of this form (`exists_of_words_eq_cons`), and a word character
is no blank (`isBlank_of_isWord`). -/

namespace Stencil.Text

/-- **The words of two texts are put together** when they meet at the edge of a word. -/
theorem words_append {s t : List Char}
    (h : ∀ c ∈ s.getLast?, ∀ d ∈ t.head?, isBlank c ≠ isBlank d) :
    words (s ++ t) = words s ++ words t := by
  have hsplit := List.splitBy_append (r := fun a b => isBlank a == isBlank b)
    fun c hc d hd => beq_eq_false_iff_ne.mpr (h c hc d hd)
  rw [words, hsplit, List.filter_append]
  rfl

/-- Blanks hold no word. -/
theorem words_of_allBlank {s : List Char} (h : AllBlank s) : words s = [] := by
  refine List.filter_eq_nil_iff.mpr fun run hrun => ?_
  rw [Bool.not_eq_true, List.any_eq_false]
  intro c hc
  have hmem : c ∈ s := by
    rw [← List.flatten_splitBy (fun a b => isBlank a == isBlank b) s]
    exact List.mem_flatten_of_mem hrun hc
  simp [h c hmem]

/-- A word is its only word. -/
theorem words_word {w : List Char} (hne : w ≠ []) (hw : ∀ c ∈ w, isBlank c = false) :
    words w = [w] := by
  have hchain : w.IsChain fun a b => (isBlank a == isBlank b) = true := by
    refine List.Pairwise.isChain (List.pairwise_iff_forall_sublist.mpr fun {a b} hab => ?_)
    rw [hw a (hab.mem (by simp)), hw b (hab.mem (by simp))]
    rfl
  obtain ⟨c, w, rfl⟩ := List.exists_cons_of_ne_nil hne
  rw [words, List.splitBy_of_isChain hne hchain]
  simp [hw c List.mem_cons_self]

/-- **The words of a text are its first word and the words of what follows it.** -/
theorem words_append_word {lead w rest : List Char} (hlead : AllBlank lead) (hne : w ≠ [])
    (hw : ∀ c ∈ w, isBlank c = false) (hrest : ∀ c ∈ rest.head?, isBlank c = true) :
    words (lead ++ (w ++ rest)) = w :: words rest := by
  have hfront : words (lead ++ (w ++ rest)) = words lead ++ words (w ++ rest) := by
    refine words_append fun c hc d hd => ?_
    rw [List.head?_append_of_ne_nil _ hne] at hd
    rw [hlead c (List.mem_of_getLast? hc), hw d (List.mem_of_mem_head? hd)]
    decide
  have hback : words (w ++ rest) = words w ++ words rest := by
    refine words_append fun c hc d hd => ?_
    rw [hw c (List.mem_of_getLast? hc), hrest d hd]
    decide
  rw [hfront, words_of_allBlank hlead, hback, words_word hne hw]
  rfl

/-- A text without words is blank. -/
theorem allBlank_of_words_eq_nil {s : List Char} (h : words s = []) : AllBlank s := by
  obtain ⟨lead, w, rest, hlead, hw, hrest, hempty, rfl⟩ := exists_firstWord s
  by_cases hne : w = []
  · rw [hempty hne, hne, List.append_nil, List.append_nil]
    exact hlead
  · rw [List.append_assoc, words_append_word hlead hne hw hrest] at h
    cases h

/-- **A text with words is blanks, the first of them, and what follows it**, with the other ones. -/
theorem exists_of_words_eq_cons {s w : List Char} {ws : List (List Char)} (h : words s = w :: ws) :
    ∃ lead rest, AllBlank lead ∧ w ≠ [] ∧ (∀ c ∈ w, isBlank c = false) ∧
      (∀ c ∈ rest.head?, isBlank c = true) ∧ s = lead ++ (w ++ rest) ∧ words rest = ws := by
  obtain ⟨lead, v, rest, hlead, hv, hrest, hempty, rfl⟩ := exists_firstWord s
  by_cases hne : v = []
  · rw [hempty hne, hne, List.append_nil, List.append_nil, words_of_allBlank hlead] at h
    cases h
  · rw [List.append_assoc, words_append_word hlead hne hv hrest] at h
    obtain ⟨rfl, rfl⟩ := List.cons.inj h
    exact ⟨lead, rest, hlead, hne, hv, hrest, List.append_assoc .., rfl⟩

/-! ## Word characters -/

/-- The ranges of the blank characters. -/
def blankRanges : List (Nat × Nat) :=
  [(0x09, 0x0D), (0x1C, 0x20), (0x85, 0x85), (0xA0, 0xA0), (0x1680, 0x1680), (0x2000, 0x200A),
    (0x2028, 0x2029), (0x202F, 0x202F), (0x205F, 0x205F), (0x3000, 0x3000)]

/-- The ranges of the letters and digits of ASCII, and of the underscore. -/
def asciiWordRanges : List (Nat × Nat) := [(0x30, 0x39), (0x41, 0x5A), (0x5F, 0x5F), (0x61, 0x7A)]

/-- A blank lies in one of its ranges. -/
theorem inRanges_of_isBlank {c : Char} (h : isBlank c = true) : inRanges blankRanges c = true := by
  simp only [isBlank, Bool.or_eq_true, Bool.and_eq_true, decide_eq_true_eq, beq_iff_eq] at h
  simp only [inRanges, blankRanges, List.any_cons, List.any_nil, Bool.or_false, Bool.or_eq_true,
    Bool.and_eq_true, decide_eq_true_eq]
  omega

/-- A letter or digit of ASCII lies in one of their ranges. -/
theorem inRanges_of_isAlphanum {c : Char} (h : c.isAlphanum = true) :
    inRanges asciiWordRanges c = true := by
  have hcode : c.toNat = c.val.toNat := rfl
  change (decide ('A'.val ≤ c.val ∧ c.val ≤ 'Z'.val) ||
    decide ('a'.val ≤ c.val) && decide (c.val ≤ 'z'.val) ||
    decide ('0'.val ≤ c.val) && decide (c.val ≤ '9'.val)) = true at h
  simp only [Bool.or_eq_true, Bool.and_eq_true, decide_eq_true_eq, UInt32.le_iff_toNat_le, ← hcode] at h
  have hends : ('0'.val).toNat = 0x30 ∧ ('9'.val).toNat = 0x39 ∧ ('A'.val).toNat = 0x41 ∧
      ('Z'.val).toNat = 0x5A ∧ ('a'.val).toNat = 0x61 ∧ ('z'.val).toNat = 0x7A := by decide
  simp only [inRanges, asciiWordRanges, List.any_cons, List.any_nil, Bool.or_false, Bool.or_eq_true,
    Bool.and_eq_true, decide_eq_true_eq]
  omega

/-- **A word character is no blank.** -/
theorem isBlank_of_isWord {c : Char} (h : isWord c = true) : isBlank c = false := by
  have htable : ((asciiWordRanges ++ wordRanges).all fun r =>
      blankRanges.all fun b => b.2 < r.1 || r.2 < b.1) = true := by decide +kernel
  have hword : inRanges (asciiWordRanges ++ wordRanges) c = true := by
    rw [isWord, Bool.or_eq_true, Bool.or_eq_true] at h
    rw [inRanges, List.any_append, Bool.or_eq_true]
    rcases h with (h | h) | h
    · exact Or.inl (inRanges_of_isAlphanum h)
    · obtain rfl := beq_iff_eq.mp h
      exact Or.inl (by decide)
    · exact Or.inr h
  by_contra hblank
  -- the two ranges that it lies in would overlap
  obtain ⟨b, hb, hin⟩ := List.any_eq_true.mp (inRanges_of_isBlank (Bool.not_eq_false _ ▸ hblank))
  obtain ⟨r, hr, hin'⟩ := List.any_eq_true.mp hword
  have hapart := List.all_eq_true.mp (List.all_eq_true.mp htable r hr) b hb
  simp only [Bool.and_eq_true, Bool.or_eq_true, decide_eq_true_eq] at hin hin' hapart
  omega

end Stencil.Text
