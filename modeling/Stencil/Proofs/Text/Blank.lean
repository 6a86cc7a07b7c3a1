import Stencil.Proofs.Text.Run
import Stencil.Text.Blank

/-! # Trimming

What trimming a text and splitting off its first word give, told by what stands around them.

* `trim_append`: what stands between two rows of blanks, and neither begins nor ends with one, is what
  trimming leaves; `exists_trim` says that every text is of this form.
* `firstWord_append` and `exists_firstWord` say the same of the first word. -/

namespace Stencil.Text

/-- Whether a text holds **nothing but blanks**. -/
def AllBlank (s : List Char) : Prop := ∀ c ∈ s, isBlank c = true

instance (s : List Char) : Decidable (AllBlank s) :=
  List.decidableBAll (fun c => isBlank c = true) s

/-- Whether a text is **bare**: it neither begins nor ends with a blank. -/
structure Bare (s : List Char) : Prop where
  /-- It does not begin with a blank. -/
  head : ∀ c ∈ s.head?, isBlank c = false
  /-- It does not end with a blank. -/
  last : ∀ c ∈ s.getLast?, isBlank c = false

/-- A text without blanks is bare. -/
theorem Bare.of_forall {s : List Char} (h : ∀ c ∈ s, isBlank c = false) : Bare s :=
  ⟨fun c hc => h c (List.mem_of_mem_head? hc), fun c hc => h c (List.mem_of_getLast? hc)⟩

/-- A character that is no blank is bare. -/
theorem Bare.singleton {c : Char} (h : isBlank c = false) : Bare [c] :=
  Bare.of_forall fun d hd => by rw [List.mem_singleton.mp hd, h]

/-- Whatever stands between two bare texts, the whole is bare. -/
theorem Bare.around {s t : List Char} (hs : Bare s) (hsne : s ≠ []) (ht : Bare t) (htne : t ≠ [])
    (between : List Char) : Bare (s ++ (between ++ t)) := by
  constructor
  · intro c hc
    rw [List.head?_append_of_ne_nil _ hsne] at hc
    exact hs.head c hc
  · intro c hc
    rw [← List.append_assoc, List.getLast?_append_of_ne_nil _ htne] at hc
    exact ht.last c hc

/-- Bare texts in a row are bare. -/
theorem Bare.append {s t : List Char} (hs : Bare s) (ht : Bare t) : Bare (s ++ t) := by
  constructor
  · intro c hc
    rw [List.head?_append, Option.mem_def, Option.or_eq_some_iff] at hc
    rcases hc with hc | ⟨-, hc⟩
    · exact hs.head c hc
    · exact ht.head c hc
  · intro c hc
    rw [List.getLast?_append, Option.mem_def, Option.or_eq_some_iff] at hc
    rcases hc with hc | ⟨-, hc⟩
    · exact ht.last c hc
    · exact hs.last c hc

/-- A bare text ends with no blanks. -/
theorem Bare.eq_nil_of_append {s t : List Char} (h : Bare (s ++ t)) (ht : AllBlank t) : t = [] := by
  by_contra hne
  have hlast := h.last (t.getLast hne)
  rw [List.getLast?_append_of_ne_nil _ hne, List.getLast?_eq_some_getLast hne] at hlast
  have hblank := ht _ (List.getLast_mem hne)
  rw [hlast rfl] at hblank
  cases hblank

/-- A text that does not begin with a blank keeps its front. -/
theorem trimLeft_eq_self {s : List Char} (h : ∀ c ∈ s.head?, isBlank c = false) :
    trimLeft s = s := by
  cases s with
  | nil => rfl
  | cons c rest =>
      have hc := h c rfl
      rw [trimLeft, List.dropWhile_cons_of_neg (by simp [hc])]

/-- A text that does not end with a blank keeps its back. -/
theorem trimRight_eq_self {s : List Char} (h : ∀ c ∈ s.getLast?, isBlank c = false) :
    trimRight s = s := by
  have hself : trimLeft s.reverse = s.reverse := trimLeft_eq_self (by simpa using h)
  rw [trimLeft] at hself
  rw [trimRight, hself, List.reverse_reverse]

/-- Blanks at the front are dropped. -/
theorem trimLeft_append {lead : List Char} (h : AllBlank lead) (s : List Char) :
    trimLeft (lead ++ s) = trimLeft s := List.dropWhile_append_of_pos h

/-- Blanks at the back are dropped. -/
theorem trimRight_append {tail : List Char} (h : AllBlank tail) (s : List Char) :
    trimRight (s ++ tail) = trimRight s := by
  have hrev : ∀ c ∈ tail.reverse, isBlank c = true := fun c hc => h c (List.mem_reverse.mp hc)
  rw [trimRight, List.reverse_append, List.dropWhile_append_of_pos hrev, trimRight]

/-- **A bare text between blanks is what trimming leaves.** -/
theorem trim_append {lead s tail : List Char} (hlead : AllBlank lead) (hs : Bare s)
    (htail : AllBlank tail) : trim (lead ++ s ++ tail) = s := by
  rw [trim, List.append_assoc, trimLeft_append hlead]
  cases s with
  | nil =>
      have hnil := trimLeft_append htail []
      rw [List.append_nil] at hnil
      rw [List.nil_append, hnil]
      rfl
  | cons c rest =>
      have hself : trimLeft (c :: rest ++ tail) = c :: rest ++ tail := trimLeft_eq_self hs.head
      rw [hself, trimRight_append htail, trimRight_eq_self hs.last]

/-- What is dropped at the front. -/
theorem exists_trimLeft (s : List Char) :
    ∃ lead, AllBlank lead ∧ s = lead ++ trimLeft s ∧ ∀ c ∈ (trimLeft s).head?, isBlank c = false := by
  refine ⟨s.takeWhile isBlank, ?_, List.takeWhile_append_dropWhile.symm, ?_⟩
  · exact List.all_eq_true.mp List.all_takeWhile
  · intro c hc
    have hhead := List.head?_dropWhile_not isBlank s
    rw [← trimLeft, hc] at hhead
    exact hhead

/-- What is dropped at the back. -/
theorem exists_trimRight (s : List Char) :
    ∃ tail, AllBlank tail ∧ s = trimRight s ++ tail ∧
      ∀ c ∈ (trimRight s).getLast?, isBlank c = false := by
  obtain ⟨lead, hlead, hs, hhead⟩ := exists_trimLeft s.reverse
  refine ⟨lead.reverse, fun c hc => hlead c (List.mem_reverse.mp hc), ?_, ?_⟩
  · have hrev := congrArg List.reverse hs
    rw [List.reverse_reverse, List.reverse_append] at hrev
    exact hrev
  · intro c hc
    rw [trimRight, List.getLast?_reverse] at hc
    exact hhead c hc

/-- **What trimming drops**: blanks at both ends, up to a bare text. -/
theorem exists_trim (s : List Char) :
    ∃ lead tail, AllBlank lead ∧ AllBlank tail ∧ Bare (trim s) ∧ s = lead ++ trim s ++ tail := by
  obtain ⟨lead, hlead, hs, hhead⟩ := exists_trimLeft s
  obtain ⟨tail, htail, ht, hlast⟩ := exists_trimRight (trimLeft s)
  refine ⟨lead, tail, hlead, htail, ⟨?_, hlast⟩, ?_⟩
  · intro c hc
    rw [ht, List.head?_append, ← trim, hc] at hhead
    exact hhead c rfl
  · rw [List.append_assoc, trim, ← ht]
    exact hs

/-- Trimming leaves a bare text as it is. -/
theorem trim_of_bare {s : List Char} (h : Bare s) : trim s = s := by
  rw [trim, trimLeft_eq_self h.head, trimRight_eq_self h.last]

/-- Trimming twice is trimming once. -/
theorem trim_trim (s : List Char) : trim (trim s) = trim s := by
  obtain ⟨-, -, -, -, hbare, -⟩ := exists_trim s
  exact trim_of_bare hbare

/-- Trimming leaves nothing of a text iff it holds nothing but blanks. -/
theorem trim_eq_nil_iff {s : List Char} : trim s = [] ↔ AllBlank s := by
  constructor
  · intro h c hc
    obtain ⟨lead, tail, hlead, htail, -, hs⟩ := exists_trim s
    rw [h, List.append_nil] at hs
    rw [hs] at hc
    exact (List.mem_append.mp hc).elim (hlead c) (htail c)
  · intro h
    have hnil := trim_append h (Bare.of_forall (List.forall_mem_nil _)) (List.forall_mem_nil _)
    rw [List.append_nil, List.append_nil] at hnil
    exact hnil

/-- A blank at the front does not matter. -/
theorem trim_cons {c : Char} (h : isBlank c = true) (s : List Char) : trim (c :: s) = trim s := by
  rw [trim, trimLeft, List.dropWhile_cons_of_pos h]
  rfl

/-- A word after blanks, with a blank or nothing behind it, is the first word. -/
theorem firstWord_append {lead name rest : List Char} (hlead : AllBlank lead)
    (hname : ∀ c ∈ name, isBlank c = false) (hrest : ∀ c ∈ rest.head?, isBlank c = true)
    (hempty : name = [] → rest = []) : firstWord (lead ++ name ++ rest) = (name, rest) := by
  have hself : trimLeft (lead ++ name ++ rest) = name ++ rest := by
    rw [List.append_assoc, trimLeft_append hlead]
    cases name with
    | nil => rw [hempty rfl]; rfl
    | cons c name => exact trimLeft_eq_self fun d hd => hname d (by simp_all)
  have hrun : ∀ c ∈ name, (!isBlank c) = true := fun c hc => by rw [hname c hc]; rfl
  have hend : ∀ c ∈ rest.head?, (!isBlank c) = false := fun c hc => by rw [hrest c hc]; rfl
  rw [firstWord, hself, takeWhile_run hrun hend, dropWhile_run hrun hend]

/-- **Every text is blanks, its first word, and the rest**, which begins with a blank. -/
theorem exists_firstWord (s : List Char) :
    ∃ lead name rest, AllBlank lead ∧ (∀ c ∈ name, isBlank c = false) ∧
      (∀ c ∈ rest.head?, isBlank c = true) ∧ (name = [] → rest = []) ∧
      s = lead ++ name ++ rest := by
  obtain ⟨lead, hlead, hs, hhead⟩ := exists_trimLeft s
  have hspan : (trimLeft s).takeWhile (!isBlank ·) ++ (trimLeft s).dropWhile (!isBlank ·) =
      trimLeft s := List.takeWhile_append_dropWhile
  refine ⟨lead, (trimLeft s).takeWhile (!isBlank ·), (trimLeft s).dropWhile (!isBlank ·), hlead,
    fun c hc => ?_, fun c hc => ?_, fun hnil => ?_, ?_⟩
  · simpa using List.all_eq_true.mp (List.all_takeWhile (p := (!isBlank ·)) (l := trimLeft s)) c hc
  · have hhead := List.head?_dropWhile_not (!isBlank ·) (trimLeft s)
    rw [hc] at hhead
    simpa using hhead
  · -- a text that does not begin with a blank begins with a word
    rw [hnil, List.nil_append] at hspan
    cases hrest : (trimLeft s).dropWhile (!isBlank ·) with
    | nil => rfl
    | cons c rest =>
        rw [hspan] at hrest
        rw [hrest] at hnil hhead
        have hc := hhead c rfl
        simp [hc] at hnil
  · rw [List.append_assoc, hspan]
    exact hs

end Stencil.Text
