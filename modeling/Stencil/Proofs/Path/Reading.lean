import Stencil.Proofs.Number.Integer
import Stencil.Proofs.Path.Grammar
import Stencil.Proofs.Result

/-! # Reading paths by the grammar

The reader of paths accepts the texts of the grammar, and gives the keys of their phrases.

* `Path.exists_index` and `Path.index?_append`: what is read between brackets.
* `Path.keysFrom_written`: links in a row are read.
* `Path.keysFrom_outcome`: whatever is read, it was links in a row, or there is a fault, or an index of
  too many digits.
* `Path.parse_derives` is the result for whole texts. -/

namespace Stencil.Path

variable {quote : Char}

/-! ## Between brackets -/

/-- What the reader keeps of what stands between brackets. -/
def Content.index : Content → Index
  | .integer negative digits _ _ => .integer negative (digits.filterMap Text.asciiDigit?)
  | .quoted _ _ letters => .quoted (letters.map Letter.char)

/-- The digits between brackets **fit** if they are not too many. -/
def Content.Fits : Content → Prop
  | .integer _ digits _ _ => digits.length ≤ Limit.digits
  | .quoted _ _ _ => True

/-- A quote closes a key. -/
theorem quotedKey?_close (rest : List Char) : quotedKey? quote (quote :: rest) = some ([], rest) := by
  cases rest <;> simp [quotedKey?]

/-- A character that is neither the quote nor a backslash is read as it is. -/
theorem quotedKey?_plain {c : Char} (hquote : c ≠ quote) (hbackslash : c ≠ '\\') (s : List Char) :
    quotedKey? quote (c :: s) = (quotedKey? quote s).map fun p => (c :: p.1, p.2) := by
  cases s <;> simp [quotedKey?, hquote, hbackslash]

/-- A character behind a backslash is read as it is. -/
theorem quotedKey?_escaped {c : Char} (hquote : quote ≠ '\\') (hfeed : c ≠ '\n') (s : List Char) :
    quotedKey? quote ('\\' :: c :: s) = (quotedKey? quote s).map fun p => (c :: p.1, p.2) := by
  simp [quotedKey?, hquote.symm, hfeed]

/-- **A quoted key is read** up to its quote. -/
theorem quotedKey?_append (hquote : quote ≠ '\\') (letters : List (Letter quote)) (rest : List Char) :
    quotedKey? quote (letters.flatMap Letter.text ++ quote :: rest) =
      some (letters.map Letter.char, rest) := by
  induction letters with
  | nil => exact quotedKey?_close rest
  | cons l ls ih =>
      cases l with
      | plain c hc hb =>
          show quotedKey? quote (c :: (ls.flatMap Letter.text ++ quote :: rest)) = _
          rw [quotedKey?_plain hc hb, ih]
          rfl
      | escaped c hfeed =>
          show quotedKey? quote ('\\' :: c :: (ls.flatMap Letter.text ++ quote :: rest)) = _
          rw [quotedKey?_escaped hquote hfeed, ih]
          rfl

/-- What is read as a quoted key is one. -/
theorem exists_letters {s key rest : List Char} (h : quotedKey? quote s = some (key, rest)) :
    ∃ letters : List (Letter quote), s = letters.flatMap Letter.text ++ quote :: rest ∧
      letters.map Letter.char = key := by
  induction s using quotedKey?.induct quote generalizing key rest with
  | case1 => simp [quotedKey?] at h
  | case2 =>
      simp only [quotedKey?, if_true, Option.some.injEq, Prod.mk.injEq] at h
      obtain ⟨rfl, rfl⟩ := h
      exact ⟨[], rfl, rfl⟩
  | case3 c hc => simp [quotedKey?, hc] at h
  | case4 d tail =>
      rw [quotedKey?_close] at h
      cases h
      exact ⟨[], rfl, rfl⟩
  | case5 tail hq => simp [quotedKey?, hq] at h
  | case6 d tail hd hq ih =>
      simp only [quotedKey?, hq, hd, if_true, if_false] at h
      obtain ⟨⟨k, r⟩, hk, he⟩ := Option.map_eq_some_iff.1 h
      cases he
      obtain ⟨ls, rfl, rfl⟩ := ih hk
      exact ⟨.escaped d hd :: ls, rfl, rfl⟩
  | case7 c d tail hq hb ih =>
      simp only [quotedKey?, hq, hb, if_false] at h
      obtain ⟨⟨k, r⟩, hk, he⟩ := Option.map_eq_some_iff.1 h
      cases he
      obtain ⟨ls, hls, rfl⟩ := ih hk
      exact ⟨.plain c hq hb :: ls, congrArg (c :: ·) hls, rfl⟩

/-- Digits have values. -/
theorem filterMap_asciiDigit {digits : List Char} (h : ∀ c ∈ digits, c.isDigit = true) :
    digits.filterMap Text.asciiDigit? = digits.map fun c => c.toNat - 48 := by
  rw [← List.filterMap_eq_map]
  refine List.filterMap_congr fun c hc => ?_
  simp [Text.asciiDigit?, h c hc]

/-- **An integer is read** up to its last digit. -/
theorem integer?_append (negative : Bool) {digits rest : List Char} (hne : digits ≠ [])
    (hdigits : ∀ c ∈ digits, c.isDigit = true) (hrest : ∀ c ∈ rest.head?, c.isDigit = false) :
    integer? ((if negative then ['-'] else []) ++ digits ++ rest) =
      some (.integer negative (digits.filterMap Text.asciiDigit?), rest) := by
  have hbody : ∀ s, ((s.head? == some '-') = negative ∧
      (if negative then s.drop 1 else s) = digits ++ rest) →
      integer? s = some (.integer negative (digits.filterMap Text.asciiDigit?), rest) := by
    rintro s ⟨hsign, hs⟩
    rw [integer?, hsign, hs, Text.takeWhile_run hdigits hrest, Text.dropWhile_run hdigits hrest]
    split
    · rename_i hnil
      rw [filterMap_asciiDigit hdigits, List.map_eq_nil_iff] at hnil
      exact absurd hnil hne
    · rfl
  refine hbody _ ?_
  cases negative with
  | true => exact ⟨rfl, rfl⟩
  | false =>
      obtain ⟨d, ds, rfl⟩ := List.exists_cons_of_ne_nil hne
      refine ⟨?_, rfl⟩
      have hd := hdigits d List.mem_cons_self
      show (some d == some '-') = false
      rw [beq_eq_false_iff_ne]
      rintro h
      cases h
      cases hd

/-- What is read as an integer is one. -/
theorem exists_digits {s rest : List Char} {item : Index} (h : integer? s = some (item, rest)) :
    ∃ negative digits, digits ≠ [] ∧ (∀ c ∈ digits, c.isDigit = true) ∧
      s = (if negative then ['-'] else []) ++ digits ++ rest ∧
      item = .integer negative (digits.filterMap Text.asciiDigit?) := by
  -- the text is a sign and what is left of it
  obtain ⟨negative, t, hsign, hdrop, rfl⟩ : ∃ negative t, (s.head? == some '-') = negative ∧
      (if negative then s.drop 1 else s) = t ∧ s = (if negative then ['-'] else []) ++ t := by
    refine ⟨_, _, rfl, rfl, ?_⟩
    cases s with
    | nil => rfl
    | cons c s =>
        by_cases hc : c = '-'
        · subst hc
          rfl
        · simp [hc]
  rw [integer?, hsign, hdrop] at h
  split at h
  · cases h
  · rename_i hvalues
    cases h
    refine ⟨negative, t.takeWhile Char.isDigit, ?_, List.all_eq_true.mp List.all_takeWhile, ?_, rfl⟩
    · intro hnil
      rw [hnil] at hvalues
      exact hvalues rfl
    · rw [List.append_assoc, List.takeWhile_append_dropWhile]

/-- **What stands between brackets is read** as it is, when an integer cannot go on behind it. -/
theorem item?_append (x : Content) {rest : List Char} (hrest : ∀ c ∈ rest.head?, c.isDigit = false) :
    item? (x.text ++ rest) = some (x.index, rest) := by
  cases x with
  | integer negative digits hne hdigits =>
      have hread := integer?_append negative hne hdigits hrest
      rw [Content.text]
      cases hs : (if negative then ['-'] else []) ++ digits ++ rest with
      | nil => simp [hne] at hs
      | cons c body =>
          have hquote : ¬(c = '\x22' ∨ c = '\x27') := fun hc => integer_ne_quoted hne hdigits hc hs
          rw [item?]
          simp only [Bool.or_eq_true, decide_eq_true_eq]
          rw [if_neg hquote, ← hs]
          exact hread
  | quoted quote hquote letters =>
      have hslash : quote ≠ '\\' := by obtain rfl | rfl := hquote <;> decide
      have hread := quotedKey?_append hslash letters rest
      show item? (quote :: (letters.flatMap Letter.text ++ [quote] ++ rest)) = _
      rw [List.append_assoc, List.singleton_append, item?]
      simp only [Bool.or_eq_true, decide_eq_true_eq]
      rw [if_pos hquote, hread]
      rfl

/-- What is read as standing between brackets does so. -/
theorem exists_content {s rest : List Char} {item : Index} (h : item? s = some (item, rest)) :
    ∃ x : Content, s = x.text ++ rest ∧ item = x.index := by
  unfold item? at h
  split at h
  · cases h
  · rename_i quote body
    split at h
    · rename_i hquote
      obtain ⟨⟨key, r⟩, hkey, he⟩ := Option.map_eq_some_iff.1 h
      cases he
      obtain ⟨letters, rfl, rfl⟩ := exists_letters hkey
      have hquote : quote = '\x22' ∨ quote = '\x27' := by simpa using hquote
      refine ⟨.quoted quote hquote letters, ?_, rfl⟩
      simp [Content.text]
    · obtain ⟨negative, digits, hne, hdigits, hs, rfl⟩ := exists_digits h
      exact ⟨.integer negative digits hne hdigits, hs, rfl⟩

/-- **An index is read** up to its closing bracket. -/
theorem index?_append {lead trail : List Char} (x : Content) (hlead : Text.AllBlank lead)
    (htrail : Text.AllBlank trail) (rest : List Char) :
    index? (lead ++ (x.text ++ (trail ++ ']' :: rest))) = some (x.index, rest) := by
  have hself : Text.trimLeft (x.text ++ (trail ++ ']' :: rest)) = x.text ++ (trail ++ ']' :: rest) :=
    Text.trimLeft_eq_self (x.isBlank_append _)
  have hclose : close? (trail ++ ']' :: rest) = some rest := by
    rw [close?, Text.trimLeft_append htrail]
    rfl
  have hdigit : ∀ c ∈ (trail ++ ']' :: rest).head?, c.isDigit = false := by
    intro c hc
    have hinteger := isIntegerChar_head htrail c hc
    exact (Bool.or_eq_false_iff.mp hinteger).2
  rw [index?, Text.trimLeft_append hlead, hself, item?_append x hdigit]
  simp [hclose]

/-- What is read as an index is one. -/
theorem exists_index {s rest : List Char} {item : Index} (h : index? s = some (item, rest)) :
    ∃ (lead trail : List Char) (x : Content), Text.AllBlank lead ∧ Text.AllBlank trail ∧
      s = lead ++ (x.text ++ (trail ++ ']' :: rest)) ∧ item = x.index := by
  obtain ⟨⟨it, r⟩, hitem, hclose⟩ := Option.bind_eq_some_iff.1 h
  obtain ⟨after, hafter, he⟩ := Option.map_eq_some_iff.1 hclose
  cases he
  obtain ⟨x, hx, rfl⟩ := exists_content hitem
  obtain ⟨lead, hlead, hs, -⟩ := Text.exists_trimLeft s
  obtain ⟨trail, htrail, hr, -⟩ := Text.exists_trimLeft r
  unfold close? at hafter
  split at hafter
  · rename_i heq
    cases hafter
    refine ⟨lead, trail, x, hlead, htrail, ?_, rfl⟩
    rw [hs, hx]
    dsimp only at heq
    rw [hr, heq]
  · cases hafter

/-! ## Keys -/

/-- The key of what stands between brackets, if its digits fit. -/
theorem Content.key_index {x : Content} (h : x.Fits) : x.index.key = .ok x.key := by
  cases x with
  | integer negative digits hne hdigits =>
      have hvalues := filterMap_asciiDigit hdigits
      have hlength : (digits.filterMap Text.asciiDigit?).length ≤ Limit.digits := by
        rw [hvalues, List.length_map]
        exact h
      have hvalue : Text.ofDigitValues 10 (digits.filterMap Text.asciiDigit?) =
          Nat.ofDigitChars 10 digits 0 := by
        rw [hvalues, Text.ofDigitValues_map]
      rw [index, Index.key, Decimal.read, if_pos hlength, hvalue]
      rfl
  | quoted quote hquote letters => rfl

/-- A name is read up to where it ends. -/
theorem name?_append {s rest : List Char} (hne : s ≠ [])
    (hchars : ∀ c ∈ s, c ≠ '.' ∧ c ≠ '[' ∧ c ≠ ']' ∧ Text.isBlank c = false)
    (hrest : ∀ c ∈ rest.head?, isNameChar c = false) : name? (s ++ rest) = some (s, rest) := by
  have hrun : ∀ c ∈ s, isNameChar c = true := fun c hc => isNameChar_iff.mpr (hchars c hc)
  rw [name?, Text.takeWhile_run hrun hrest, Text.dropWhile_run hrun hrest]
  split
  · exact absurd rfl hne
  · rfl

/-- What is read as a name is one. -/
theorem exists_name {s name rest : List Char} (h : name? s = some (name, rest)) :
    name ≠ [] ∧ (∀ c ∈ name, c ≠ '.' ∧ c ≠ '[' ∧ c ≠ ']' ∧ Text.isBlank c = false) ∧
      s = name ++ rest := by
  unfold name? at h
  split at h
  · cases h
  · rename_i hne
    cases h
    refine ⟨hne, fun c hc => ?_, List.takeWhile_append_dropWhile.symm⟩
    exact isNameChar_iff.mp (List.all_eq_true.mp List.all_takeWhile c hc)

/-! ## Links -/

/-- A link **fits** if it is no index of too many digits. -/
def Link.Fits : Link → Prop
  | .name _ _ _ => True
  | .index _ x _ _ _ => x.Fits

section Steps

variable {text : String} {total : Nat} {first : Bool}

/-- An index is read, and then what is behind it. -/
theorem keysFrom_index {body rest : List Char} {x : Content} (h : index? body = some (x.index, rest))
    (hx : x.Fits) : keysFrom text total first ('[' :: body) =
      (x.key :: ·) <$> keysFrom text total false rest := by
  rw [keysFrom]
  split
  · rename_i hnone
    rw [hnone] at h
    cases h
  · rename_i item after hsome
    rw [hsome] at h
    cases h
    rw [x.key_index hx]
    rfl

/-- A name after a point is read, and then what is behind it. -/
theorem keysFrom_point {body name rest : List Char} (h : name? body = some (name, rest)) :
    keysFrom text total false ('.' :: body) =
      (Key.name (String.ofList name) :: ·) <$> keysFrom text total false rest := by
  rw [keysFrom, if_neg Bool.false_ne_true]
  split
  · rename_i hnone
    rw [hnone] at h
    cases h
  · rename_i name' after hsome
    rw [hsome] at h
    cases h
    rfl

/-- A name at the beginning is read, and then what is behind it. -/
theorem keysFrom_name {c : Char} {body name rest : List Char} (hpoint : c ≠ '.') (hopen : c ≠ '[')
    (h : name? (c :: body) = some (name, rest)) :
    keysFrom text total true (c :: body) =
      (Key.name (String.ofList name) :: ·) <$> keysFrom text total false rest := by
  rw [keysFrom, if_pos rfl]
  · split
    · rename_i hnone
      rw [hnone] at h
      cases h
    · rename_i name' after hsome
      rw [hsome] at h
      cases h
      rfl
  · exact hopen
  · exact hpoint

/-- **A link is read**, and then the links behind it. -/
theorem keysFrom_link {l : Link} (hl : l.Fits) (ls : List Link) :
    keysFrom text total first (written first (l :: ls)) =
      (l.key :: ·) <$> keysFrom text total false (written false ls) := by
  cases l with
  | name s hne hchars =>
      have hread := name?_append hne hchars (isNameChar_head (s := written false ls) fun _ => head_written)
      cases first with
      | true =>
          obtain ⟨c, s, rfl⟩ := List.exists_cons_of_ne_nil hne
          have hc := hchars c List.mem_cons_self
          exact keysFrom_name hc.1 hc.2.1 hread
      | false => exact keysFrom_point hread
  | index lead x trail hlead htrail =>
      have hread := index?_append x hlead htrail (written false ls)
      rw [written, Link.text]
      simp only [List.cons_append, List.append_assoc, List.nil_append]
      exact keysFrom_index hread hl

/-- **Links in a row are read.** -/
theorem keysFrom_written {ls : List Link} (h : ∀ l ∈ ls, l.Fits) :
    keysFrom text total first (written first ls) = .ok (ls.map Link.key) := by
  induction ls generalizing first with
  | nil => simp [written, keysFrom]
  | cons l ls ih =>
      rw [keysFrom_link (h l List.mem_cons_self), ih fun m hm => h m (List.mem_cons_of_mem _ hm)]
      rfl

end Steps

/-- **What reading links comes to.** -/
inductive Outcome (text : String) (total : Nat) (first : Bool) (s : List Char) : Prop where
  /-- The text is that of links in a row. -/
  | links (ls : List Link) (h : written first ls = s)
  /-- The text has a fault. -/
  | fault (fault : PathFault) (h : keysFrom text total first s = .error (.malformed text fault))
  /-- Among the links that the text begins with there is one that does not fit. -/
  | unfit (ls : List Link) (rest : List Char) (h : written first ls ++ rest = s) (l : Link) (hl : l ∈ ls)
    (hfit : ¬l.Fits)

/-- What reading comes to, told from what it comes to behind the first link. -/
theorem Outcome.cons {text : String} {total : Nat} {first : Bool} {s rest : List Char} (l : Link)
    (hs : s = l.text first ++ rest)
    (hread : l.Fits → keysFrom text total first s = (l.key :: ·) <$> keysFrom text total false rest)
    (h : Outcome text total false rest) : Outcome text total first s := by
  by_cases hfit : l.Fits
  · cases h with
    | links ls hls => exact .links (l :: ls) (by rw [written, hls, hs])
    | fault f hf =>
        refine .fault f ?_
        rw [hread hfit, hf]
        rfl
    | unfit ls after hls m hm hunfit =>
        refine .unfit (l :: ls) after ?_ m (List.mem_cons_of_mem _ hm) hunfit
        rw [written, List.append_assoc, hls, hs]
  · refine .unfit [l] rest ?_ l List.mem_cons_self hfit
    rw [written, written, List.append_nil, hs]

/-- **Reading links comes to one of the three.** -/
theorem keysFrom_outcome (text : String) (total : Nat) (first : Bool) (s : List Char) :
    Outcome text total first s := by
  induction first, s using keysFrom.induct total with
  | case1 => exact .links [] rfl
  | case2 first body hnone =>
      refine .fault (.badIndex (total - ('[' :: body).length)) ?_
      rw [keysFrom]
      split
      · rfl
      · simp_all
  | case3 first body item rest hsome ih =>
      obtain ⟨lead, trail, x, hlead, htrail, rfl, rfl⟩ := exists_index hsome
      refine Outcome.cons (.index lead x trail hlead htrail) ?_ (fun hfit => keysFrom_index hsome hfit) ih
      simp [Link.text]
  | case4 body => exact .fault .leadingPoint (by rw [keysFrom, if_pos rfl])
  | case5 first body hfirst hnone =>
      refine .fault (.missingName (total - ('.' :: body).length + 1)) ?_
      rw [keysFrom, if_neg hfirst]
      split
      · rfl
      · simp_all
  | case6 first body hfirst name rest hsome ih =>
      obtain rfl := Bool.not_eq_true _ ▸ hfirst
      obtain ⟨hne, hchars, rfl⟩ := exists_name hsome
      exact Outcome.cons (.name name hne hchars) rfl (fun _ => keysFrom_point hsome) ih
  | case7 c body hopen hpoint hnone =>
      refine .fault (.missingName (total - (c :: body).length)) ?_
      rw [keysFrom, if_pos rfl]
      · split
        · rfl
        · simp_all
      · exact hopen
      · exact hpoint
  | case8 c body hopen hpoint name rest hsome ih =>
      obtain ⟨hne, hchars, hs⟩ := exists_name hsome
      exact Outcome.cons (.name name hne hchars) hs (fun _ => keysFrom_name hpoint hopen hsome) ih
  | case9 first c body hopen hpoint hfirst =>
      refine .fault (.unexpected c (total - (c :: body).length)) ?_
      rw [keysFrom, if_neg hfirst]
      · exact hopen
      · exact hpoint

/-! ## Whole texts -/

/-- A text **derives** keys if it is that of a phrase that gives them. -/
def Derives (s : List Char) (keys : List Key) : Prop := ∃ p : Phrase, p.text = s ∧ p.keys = keys

/-- **No index of a text is too long**: of all links that the text begins with, none is an index of too many
digits. -/
def IndexesFit (s : List Char) : Prop :=
  ∀ ls rest, written true ls ++ rest = s → ∀ l ∈ ls, l.Fits

/-- If the indexes of a text fit, those of its beginning do. -/
theorem IndexesFit.of_isPrefix {s t : List Char} (h : IndexesFit t) (hs : s <+: t) : IndexesFit s := by
  obtain ⟨after, rfl⟩ := hs
  intro ls rest hls
  exact h ls (rest ++ after) (by rw [← List.append_assoc, hls])

/-- The text of a link stands within that of the links in a row. -/
theorem infix_written {first : Bool} {ls : List Link} {l : Link} (h : l ∈ ls) :
    ∃ b, l.text b <:+: written first ls := by
  induction ls generalizing first with
  | nil => cases h
  | cons m ms ih =>
      rcases List.mem_cons.mp h with rfl | h
      · exact ⟨first, List.infix_append' [] _ _⟩
      · obtain ⟨b, hb⟩ : ∃ b, l.text b <:+: written false ms := ih h
        exact ⟨b, hb.trans (List.suffix_append _ _).isInfix⟩

/-- Indexes fit if no run of ASCII digits within the text is beyond the limit. -/
theorem indexesFit_of_runs {s : List Char}
    (h : ∀ run, run <:+: s → (∀ c ∈ run, c.isDigit = true) → run.length ≤ Limit.digits) :
    IndexesFit s := by
  intro ls rest hs l hl
  cases l with
  | name => trivial
  | index lead x trail hlead htrail =>
      cases x with
      | quoted => trivial
      | integer negative digits hne hdigits =>
          obtain ⟨b, hb⟩ : ∃ b, _ <:+: written true ls := infix_written hl
          have hrun : digits <:+: (Link.index lead (.integer negative digits hne hdigits) trail hlead
              htrail).text b :=
            ⟨'[' :: (lead ++ (if negative then ['-'] else [])), trail ++ [']'],
              by simp [Link.text, Content.text]⟩
          have hprefix : written true ls <:+: s := hs ▸ (List.prefix_append _ _).isInfix
          exact h digits (hrun.trans (hb.trans hprefix)) hdigits

/-- Indexes fit in a text that is short enough. -/
theorem indexesFit_of_length_le {s : List Char} (h : s.length ≤ Limit.digits) : IndexesFit s :=
  indexesFit_of_runs fun _ hrun _ => hrun.length_le.trans h

/-- A text is read by its trimmed form. -/
theorem parse_of_ne_nil {text : String} (h : Text.trim text.toList ≠ []) :
    parse text = (⟨Text.trimmed text, ·⟩) <$>
      keysFrom text (Text.trim text.toList).length true (Text.trim text.toList) := by
  unfold parse
  split
  · rename_i hnil
    exact absurd hnil h
  · rfl

/-- **The text of a phrase is read**, whatever blanks stand around it. -/
theorem parse_phrase {text : String} {p : Phrase} (hp : p.text = Text.trim text.toList)
    (hfit : ∀ l ∈ p.links, l.Fits) : parse text = .ok ⟨Text.trimmed text, p.keys⟩ := by
  have hne : Text.trim text.toList ≠ [] := by
    rw [← hp]
    exact p.text_ne_nil
  rw [parse_of_ne_nil hne, ← hp, Phrase.text, keysFrom_written hfit]
  rfl

/-- A phrase is told by its text as a string. -/
theorem Phrase.text_toList (p : Phrase) : p.text = Text.trim (String.ofList p.text).toList := by
  rw [String.toList_ofList, p.trim_text]

/-- A link for a key fits if the key is no integer of too many digits. -/
theorem Link.fits_ofKey {key : Key} (h : ∀ n, key = .index n → n.natAbs < 10 ^ Limit.digits) :
    (ofKey key).Fits := by
  cases key with
  | name s => trivial
  | index n =>
      have hpositive : 0 < Limit.digits := by decide
      exact Nat.toDigits_length 10 n.natAbs Limit.digits hpositive (h n rfl)

/-- The links for a row of keys fit if no key is an integer of too many digits. -/
theorem Link.fits_ofKeys {keys : List Key} (h : ∀ n, .index n ∈ keys → n.natAbs < 10 ^ Limit.digits) :
    ∀ l ∈ keys.map ofKey, l.Fits := by
  intro l hl
  obtain ⟨key, hkey, rfl⟩ := List.mem_map.mp hl
  exact fits_ofKey fun n hn => h n (hn ▸ hkey)

/-- A row of keys is read back from the text that is written for it. -/
theorem parse_ofKeys {key : Key} {keys : List Key}
    (h : ∀ n, .index n ∈ key :: keys → n.natAbs < 10 ^ Limit.digits) :
    parse (String.ofList (Phrase.ofKeys key keys).text) =
      .ok ⟨Text.trimmed (String.ofList (Phrase.ofKeys key keys).text), key :: keys⟩ := by
  rw [parse_phrase (Phrase.text_toList _) (Link.fits_ofKeys h), Phrase.keys_ofKeys]

/-- A text whose indexes fit is that of a phrase, or it has a fault. -/
theorem exists_phrase_or_fault {text : String} (h : IndexesFit (Text.trim text.toList)) :
    (∃ p : Phrase, p.text = Text.trim text.toList ∧ parse text = .ok ⟨Text.trimmed text, p.keys⟩) ∨
      ∃ fault, parse text = .error (.malformed text fault) := by
  by_cases hnil : Text.trim text.toList = []
  · refine Or.inr ⟨.empty, ?_⟩
    rw [parse, hnil]
  · cases keysFrom_outcome text (Text.trim text.toList).length true (Text.trim text.toList) with
    | links ls hls =>
        have hne : ls ≠ [] := by
          rintro rfl
          exact hnil hls.symm
        exact Or.inl ⟨⟨ls, hne⟩, hls, parse_phrase hls (h ls [] (by rw [List.append_nil, hls]))⟩
    | fault f hf =>
        refine Or.inr ⟨f, ?_⟩
        rw [parse_of_ne_nil hnil, hf]
        rfl
    | unfit ls rest hls l hl hunfit => exact absurd (h ls rest hls l hl) hunfit

/-- What a text whose indexes fit is read as, and what it derives. -/
theorem parse_eq_ok_iff_derives {text : String} (h : IndexesFit (Text.trim text.toList)) (path : Path) :
    parse text = .ok path ↔
      path.text = Text.trimmed text ∧ Derives (Text.trim text.toList) path.keys := by
  constructor
  · intro hpath
    rcases exists_phrase_or_fault h with ⟨p, hp, hread⟩ | ⟨fault, hread⟩
    · rw [hread] at hpath
      cases hpath
      exact ⟨rfl, p, hp, rfl⟩
    · rw [hread] at hpath
      cases hpath
  · rintro ⟨htext, p, hp, hkeys⟩
    have hfit : ∀ l ∈ p.links, l.Fits := h p.links [] (by rw [List.append_nil]; exact hp)
    rw [parse_phrase hp hfit, ← htext, hkeys]

/-- **Paths are read by their grammar.** A text whose indexes are not too long is read as the keys that it
derives, and if it derives none it is reported with what is wrong with it. A text is derived in one way at
most, and every row of keys is derived by a text, which is read back if its integers are not too long. -/
theorem parse_derives {text : String} (h : IndexesFit (Text.trim text.toList)) :
    (∀ path, parse text = .ok path ↔
      path.text = Text.trimmed text ∧ Derives (Text.trim text.toList) path.keys) ∧
    ((¬∃ keys, Derives (Text.trim text.toList) keys) →
      ∃ fault, parse text = .error (.malformed text fault)) ∧
    Function.Injective Phrase.text ∧
    ∀ key keys, ∃ other : String, Derives (Text.trim other.toList) (key :: keys) ∧
      ((∀ n, .index n ∈ key :: keys → n.natAbs < 10 ^ Limit.digits) →
        parse other = .ok ⟨Text.trimmed other, key :: keys⟩) := by
  refine ⟨parse_eq_ok_iff_derives h, fun hnone => ?_, Phrase.text_injective, fun key keys => ?_⟩
  · rcases exists_phrase_or_fault h with ⟨p, hp, -⟩ | hfault
    · exact absurd ⟨p.keys, p, hp, rfl⟩ hnone
    · exact hfault
  · have hderives : Derives (Text.trim (String.ofList (Phrase.ofKeys key keys).text).toList)
        (key :: keys) := ⟨_, Phrase.text_toList _, Phrase.keys_ofKeys key keys⟩
    exact ⟨_, hderives, parse_ofKeys⟩

/-- A path with blanks around it and inside of a bracket, and with an escaped quote. -/
def winding : String := " a[ -1 ]['it\\'s'].b "

theorem parse_derives_winding :
    IndexesFit (Text.trim winding.toList) ∧
    ((∀ path, parse winding = .ok path ↔
      path.text = Text.trimmed winding ∧ Derives (Text.trim winding.toList) path.keys) ∧
    ((¬∃ keys, Derives (Text.trim winding.toList) keys) →
      ∃ fault, parse winding = .error (.malformed winding fault)) ∧
    Function.Injective Phrase.text ∧
    ∀ key keys, ∃ other : String, Derives (Text.trim other.toList) (key :: keys) ∧
      ((∀ n, .index n ∈ key :: keys → n.natAbs < 10 ^ Limit.digits) →
        parse other = .ok ⟨Text.trimmed other, key :: keys⟩)) ∧
    Derives (Text.trim winding.toList) [.name "a", .index (-1), .name "it's", .name "b"] := by
  have hfit : IndexesFit (Text.trim winding.toList) := indexesFit_of_length_le (by decide +kernel)
  have hread : parse winding =
      .ok ⟨"a[ -1 ]['it\\'s'].b", [.name "a", .index (-1), .name "it's", .name "b"]⟩ := by
    decide +kernel
  have hderives := parse_derives hfit
  exact ⟨hfit, hderives, ((hderives.1 _).mp hread).2⟩

end Stencil.Path
