import Mathlib.Data.Nat.Digits.Defs
import Stencil.Path.Parser
import Stencil.Proofs.Text.Blank
import Stencil.Proofs.Text.Run

/-! # The grammar of paths

A path is a name or an index, followed by any number of indexes and of names after a point.

* `Path.Phrase` is a syntax tree of this grammar, with all that its text shows: the blanks inside
  brackets, the quotes, and which letters of a key are escaped.
* `Path.Phrase.text_injective`: the grammar is unambiguous.
* `Path.Phrase.bare_text`: the text of a phrase neither begins nor ends with a blank.
* `Path.Phrase.keys_ofKeys`: every row of keys is what some phrase gives. -/

namespace Stencil.Path

/-! ## Syntax trees -/

/-- A **letter** of a key between quotes. -/
inductive Letter (quote : Char) where
  /-- A character as it is, neither the quote nor a backslash. -/
  | plain (c : Char) (hquote : c ≠ quote) (hbackslash : c ≠ '\\')
  /-- A backslash and any character but a line feed. -/
  | escaped (c : Char) (hfeed : c ≠ '\n')

/-- What stands **between the brackets** of an index, less the blanks. -/
inductive Content where
  /-- An optional minus and ASCII digits. -/
  | integer (negative : Bool) (digits : List Char) (hne : digits ≠ [])
      (hdigits : ∀ c ∈ digits, c.isDigit = true)
  /-- A key between two quotes of one kind. -/
  | quoted (quote : Char) (hquote : quote = '\x22' ∨ quote = '\x27') (letters : List (Letter quote))

/-- A **link** of a path. -/
inductive Link where
  /-- A bare name. -/
  | name (s : List Char) (hne : s ≠ [])
      (hchars : ∀ c ∈ s, c ≠ '.' ∧ c ≠ '[' ∧ c ≠ ']' ∧ Text.isBlank c = false)
  /-- An index, with the blanks on both sides of its content. -/
  | index (lead : List Char) (content : Content) (trail : List Char) (hlead : Text.AllBlank lead)
      (htrail : Text.AllBlank trail)

/-- A **phrase** of the grammar: links in a row. -/
structure Phrase where
  /-- The links. -/
  links : List Link
  /-- There is at least one. -/
  ne_nil : links ≠ []

variable {quote : Char}

/-- The text of a letter. -/
def Letter.text : Letter quote → List Char
  | .plain c _ _ => [c]
  | .escaped c _ => ['\\', c]

/-- The character that a letter stands for. -/
def Letter.char : Letter quote → Char
  | .plain c _ _ => c
  | .escaped c _ => c

/-- The text between brackets. -/
def Content.text : Content → List Char
  | .integer negative digits _ _ => (if negative then ['-'] else []) ++ digits
  | .quoted quote _ letters => quote :: (letters.flatMap Letter.text ++ [quote])

/-- The key between brackets. -/
def Content.key : Content → Key
  | .integer negative digits _ _ =>
    let n : Int := Nat.ofDigitChars 10 digits 0
    .index (if negative then -n else n)
  | .quoted _ _ letters => .name (String.ofList (letters.map Letter.char))

/-- The text of a link, which is the first one of its path or not. -/
def Link.text (first : Bool) : Link → List Char
  | .name s _ _ => if first then s else '.' :: s
  | .index lead content trail _ _ => '[' :: (lead ++ (content.text ++ (trail ++ [']'])))

/-- The key of a link. -/
def Link.key : Link → Key
  | .name s _ _ => .name (String.ofList s)
  | .index _ content _ _ _ => content.key

/-- The text of links in a row. -/
def written (first : Bool) : List Link → List Char
  | [] => []
  | l :: ls => l.text first ++ written false ls

/-- The text of a phrase. -/
def Phrase.text (p : Phrase) : List Char := written true p.links

/-- The keys that a phrase gives. -/
def Phrase.keys (p : Phrase) : List Key := p.links.map Link.key

/-! ## What texts begin with -/

/-- A digit is no blank. -/
theorem isBlank_of_isDigit {c : Char} (h : c.isDigit = true) : Text.isBlank c = false := by
  simp only [Char.isDigit, Bool.and_eq_true, decide_eq_true_eq, UInt32.le_iff_toNat_le] at h
  have hval : c.toNat = c.val.toNat := rfl
  have h0 : ('0'.val).toNat = 48 := rfl
  have h9 : ('9'.val).toNat = 57 := rfl
  simp [Text.isBlank]
  omega

/-- The characters of an integer: a minus or a digit. -/
def isIntegerChar (c : Char) : Bool := c == '-' || c.isDigit

/-- A character of an integer is neither a blank nor a bracket nor a quote. -/
theorem isIntegerChar_spec {c : Char} (h : isIntegerChar c = true) :
    Text.isBlank c = false ∧ c ≠ ']' ∧ c ≠ '\x22' ∧ c ≠ '\x27' := by
  rcases Bool.or_eq_true_iff.mp h with h | h
  · obtain rfl := beq_iff_eq.mp h
    decide
  · refine ⟨isBlank_of_isDigit h, ?_, ?_, ?_⟩ <;> (rintro rfl; cases h)

/-- An integer is a run of such characters. -/
theorem integer_run (negative : Bool) {digits : List Char} (hdigits : ∀ c ∈ digits, c.isDigit = true) :
    ∀ c ∈ (if negative then ['-'] else []) ++ digits, isIntegerChar c = true := by
  intro c hc
  rcases List.mem_append.mp hc with hc | hc
  · cases negative with
    | true =>
        obtain rfl := List.mem_singleton.mp hc
        rfl
    | false => cases hc
  · simp [isIntegerChar, hdigits c hc]

/-- Between brackets there is something. -/
theorem Content.text_ne_nil (x : Content) : x.text ≠ [] := by
  cases x with
  | integer negative digits hne hdigits => simp [text, hne]
  | quoted quote hquote letters => simp [text]

/-- What stands between brackets does not begin with a blank. -/
theorem Content.isBlank_head {x : Content} {c : Char} (h : c ∈ x.text.head?) : Text.isBlank c = false := by
  cases x with
  | integer negative digits hne hdigits =>
      have hc := integer_run negative hdigits c (List.mem_of_mem_head? h)
      exact (isIntegerChar_spec hc).1
  | quoted quote hquote letters =>
      cases h
      obtain rfl | rfl := hquote <;> rfl

/-- Nor does it when something stands behind it. -/
theorem Content.isBlank_append (x : Content) (s : List Char) :
    ∀ c ∈ (x.text ++ s).head?, Text.isBlank c = false := by
  intro c hc
  rw [List.head?_append_of_ne_nil _ x.text_ne_nil] at hc
  exact x.isBlank_head hc

/-- A link has a text. -/
theorem Link.text_ne_nil (l : Link) (first : Bool) : l.text first ≠ [] := by
  cases l with
  | name s hne => cases first <;> simp [text, hne]
  | index => simp [text]

/-- Blanks and a closing bracket do not go on an integer. -/
theorem isIntegerChar_head {trail rest : List Char} (h : Text.AllBlank trail) :
    ∀ c ∈ (trail ++ ']' :: rest).head?, isIntegerChar c = false := by
  intro c hc
  have hcase : Text.isBlank c = true ∨ c = ']' := by
    cases trail with
    | nil =>
        cases hc
        exact Or.inr rfl
    | cons b trail =>
        cases hc
        exact Or.inl (h c List.mem_cons_self)
  by_contra hinteger
  obtain ⟨hblank, hclose, -⟩ := isIntegerChar_spec (Bool.not_eq_false _ ▸ hinteger)
  rcases hcase with hc | hc
  · rw [hblank] at hc
    cases hc
  · exact hclose hc

/-- Links that are not the first ones of their path begin with a point or a bracket. -/
theorem head_written {ls : List Link} {c : Char} (h : c ∈ (written false ls).head?) :
    c = '.' ∨ c = '[' := by
  cases ls with
  | nil => cases h
  | cons l ls =>
      cases l with
      | name s =>
          cases h
          exact Or.inl rfl
      | index =>
          cases h
          exact Or.inr rfl

/-! ## The grammar is unambiguous -/

/-- Letters before a quote are told by their text. -/
theorem letters_unique (hquote : quote ≠ '\\') {ls ms : List (Letter quote)} {rest rest' : List Char}
    (h : ls.flatMap Letter.text ++ quote :: rest = ms.flatMap Letter.text ++ quote :: rest') :
    ls = ms ∧ rest = rest' := by
  induction ls generalizing ms with
  | nil =>
      cases ms with
      | nil => exact ⟨rfl, by simpa using h⟩
      | cons m ms =>
          -- a letter does not begin with the quote
          cases m with
          | plain c hc =>
              have hhead : quote = c := (List.cons.inj h).1
              exact absurd hhead.symm hc
          | escaped c => exact absurd (List.cons.inj h).1 hquote
  | cons l ls ih =>
      cases ms with
      | nil =>
          cases l with
          | plain c hc => exact absurd (List.cons.inj h).1 hc
          | escaped c => exact absurd (List.cons.inj h).1.symm hquote
      | cons m ms =>
          cases l with
          | plain c hc hb =>
              cases m with
              | plain d =>
                  obtain ⟨rfl, htail⟩ := List.cons.inj h
                  obtain ⟨rfl, hrest⟩ := ih htail
                  exact ⟨rfl, hrest⟩
              | escaped d => exact absurd (List.cons.inj h).1 hb
          | escaped c =>
              cases m with
              | plain d _ hd => exact absurd (List.cons.inj h).1.symm hd
              | escaped d =>
                  obtain ⟨hd, htail⟩ := List.cons.inj (List.cons.inj h).2
                  obtain rfl : c = d := hd
                  obtain ⟨rfl, hrest⟩ := ih htail
                  exact ⟨rfl, hrest⟩

/-- Integers are told by their text. -/
theorem integer_unique {negative negative' : Bool} {digits digits' : List Char}
    (hdigits : ∀ c ∈ digits, c.isDigit = true) (hdigits' : ∀ c ∈ digits', c.isDigit = true)
    (h : (if negative then ['-'] else []) ++ digits = (if negative' then ['-'] else []) ++ digits') :
    negative = negative' ∧ digits = digits' := by
  cases negative with
  | true =>
      cases negative' with
      | true => exact ⟨rfl, (List.cons.inj h).2⟩
      | false =>
          -- the minus would be a digit
          have hplain : '-' :: digits = digits' := h
          have hminus := hdigits' '-' (hplain ▸ List.mem_cons_self)
          cases hminus
  | false =>
      cases negative' with
      | true =>
          have hplain : digits = '-' :: digits' := h
          have hminus := hdigits '-' (hplain ▸ List.mem_cons_self)
          cases hminus
      | false => exact ⟨rfl, h⟩

/-- An integer does not begin with a quote. -/
theorem integer_ne_quoted {negative : Bool} {digits s t : List Char} {c : Char} (hne : digits ≠ [])
    (hdigits : ∀ c ∈ digits, c.isDigit = true) (hc : c = '\x22' ∨ c = '\x27') :
    (if negative then ['-'] else []) ++ digits ++ s ≠ c :: t := by
  intro h
  have hmem : c ∈ (if negative then ['-'] else []) ++ digits := by
    refine List.mem_of_mem_head? (Option.mem_def.mpr ?_)
    have hhead := congrArg List.head? h
    rwa [List.head?_append_of_ne_nil _ (by simp [hne])] at hhead
  obtain ⟨-, -, hdouble, hsingle⟩ := isIntegerChar_spec (integer_run negative hdigits c hmem)
  rcases hc with hc | hc
  · exact hdouble hc
  · exact hsingle hc

/-- What stands between brackets is told by its text and the blanks behind it. -/
theorem content_unique {x y : Content} {trail trail' rest rest' : List Char}
    (htrail : Text.AllBlank trail) (htrail' : Text.AllBlank trail')
    (h : x.text ++ (trail ++ ']' :: rest) = y.text ++ (trail' ++ ']' :: rest')) :
    x = y ∧ trail = trail' ∧ rest = rest' := by
  -- it is enough to tell the contents from what is behind them
  suffices hxy : x = y ∧ trail ++ ']' :: rest = trail' ++ ']' :: rest' by
    obtain ⟨hxy, hbehind⟩ := hxy
    obtain ⟨hblanks, hclose⟩ := Text.run_unique (p := Text.isBlank) htrail
      (fun c hc => by cases hc; rfl) htrail' (fun c hc => by cases hc; rfl) hbehind
    exact ⟨hxy, hblanks, (List.cons.inj hclose).2⟩
  cases x with
  | integer negative digits hne hdigits =>
      cases y with
      | integer negative' digits' hne' hdigits' =>
          obtain ⟨hinteger, hbehind⟩ := Text.run_unique (integer_run negative hdigits)
            (isIntegerChar_head htrail) (integer_run negative' hdigits') (isIntegerChar_head htrail') h
          obtain ⟨rfl, rfl⟩ := integer_unique hdigits hdigits' hinteger
          exact ⟨rfl, hbehind⟩
      | quoted quote hquote letters => exact absurd h (integer_ne_quoted hne hdigits hquote)
  | quoted quote hquote letters =>
      cases y with
      | integer negative digits hne hdigits => exact absurd h.symm (integer_ne_quoted hne hdigits hquote)
      | quoted quote' hquote' letters' =>
          obtain ⟨rfl, htail⟩ := List.cons.inj h
          have hslash : quote ≠ '\\' := by obtain rfl | rfl := hquote <;> decide
          simp only [List.append_eq, List.append_assoc, List.singleton_append] at htail
          obtain ⟨rfl, hbehind⟩ := letters_unique hslash htail
          exact ⟨rfl, hbehind⟩

/-- What a bare name is made of. -/
theorem isNameChar_iff {c : Char} :
    isNameChar c = true ↔ c ≠ '.' ∧ c ≠ '[' ∧ c ≠ ']' ∧ Text.isBlank c = false := by
  simp [isNameChar, and_assoc]

/-- A point and a bracket do not go on a name. -/
theorem isNameChar_head {s : List Char} (h : ∀ c ∈ s.head?, c = '.' ∨ c = '[') :
    ∀ c ∈ s.head?, isNameChar c = false := by
  intro c hc
  rcases h c hc with rfl | rfl <;> rfl

/-- A name is no index. -/
theorem name_ne_bracket {first : Bool} {s t u : List Char} (hne : s ≠ [])
    (hchars : ∀ c ∈ s, c ≠ '.' ∧ c ≠ '[' ∧ c ≠ ']' ∧ Text.isBlank c = false) :
    (if first then s else '.' :: s) ++ t ≠ '[' :: u := by
  intro h
  cases first with
  | true =>
      cases s with
      | nil => exact hne rfl
      | cons c s => exact (hchars c List.mem_cons_self).2.1 (List.cons.inj h).1
  | false => exact absurd (List.cons.inj h).1 (by decide)

/-- Indexes are told by their text. -/
theorem index_unique {x y : Content} {lead lead' trail trail' rest rest' : List Char}
    (hlead : Text.AllBlank lead) (hlead' : Text.AllBlank lead') (htrail : Text.AllBlank trail)
    (htrail' : Text.AllBlank trail')
    (h : lead ++ (x.text ++ (trail ++ ']' :: rest)) = lead' ++ (y.text ++ (trail' ++ ']' :: rest'))) :
    lead = lead' ∧ x = y ∧ trail = trail' ∧ rest = rest' := by
  obtain ⟨rfl, hbehind⟩ := Text.run_unique hlead (x.isBlank_append _) hlead' (y.isBlank_append _) h
  exact ⟨rfl, content_unique htrail htrail' hbehind⟩

/-- Links are told by their text, when the next one begins behind them. -/
theorem link_unique {first : Bool} {l m : Link} {rest rest' : List Char}
    (hrest : ∀ c ∈ rest.head?, c = '.' ∨ c = '[') (hrest' : ∀ c ∈ rest'.head?, c = '.' ∨ c = '[')
    (h : l.text first ++ rest = m.text first ++ rest') : l = m ∧ rest = rest' := by
  cases l with
  | name s hne hchars =>
      cases m with
      | name t hne' hchars' =>
          have hsame : s ++ rest = t ++ rest' := by
            cases first with
            | true => exact h
            | false => exact (List.cons.inj h).2
          obtain ⟨rfl, rfl⟩ := Text.run_unique (fun c hc => isNameChar_iff.mpr (hchars c hc))
            (isNameChar_head hrest) (fun c hc => isNameChar_iff.mpr (hchars' c hc))
            (isNameChar_head hrest') hsame
          exact ⟨rfl, rfl⟩
      | index lead x trail => exact absurd h (name_ne_bracket hne hchars)
  | index lead x trail hlead htrail =>
      cases m with
      | name t hne hchars => exact absurd h.symm (name_ne_bracket hne hchars)
      | index lead' y trail' hlead' htrail' =>
          have hinner := (List.cons.inj h).2
          simp only [List.append_eq, List.append_assoc, List.singleton_append] at hinner
          obtain ⟨rfl, rfl, rfl, rfl⟩ := index_unique hlead hlead' htrail htrail' hinner
          exact ⟨rfl, rfl⟩

/-- A link **in brackets** is an index. -/
def Link.Bracketed : Link → Prop
  | .name _ _ _ => False
  | .index _ _ _ _ _ => True

/-- Links in brackets have the same text at the beginning of a path as behind others. -/
theorem written_bracketed {ms : List Link} (h : ∀ m ∈ ms, m.Bracketed) (first : Bool) :
    written first ms = written false ms := by
  cases ms with
  | nil => rfl
  | cons m ms =>
      cases m with
      | name => exact (h _ List.mem_cons_self).elim
      | index => rfl

/-- Links in brackets begin and end with one. -/
theorem ends_bracketed {ms : List Link} (hne : ms ≠ []) (h : ∀ m ∈ ms, m.Bracketed) (first : Bool) :
    (written first ms).head? = some '[' ∧ (written first ms).getLast? = some ']' := by
  induction ms generalizing first with
  | nil => exact absurd rfl hne
  | cons m ms ih =>
      have hbracketed := h m List.mem_cons_self
      cases m with
      | name => exact hbracketed.elim
      | index lead x trail hlead htrail =>
          refine ⟨rfl, ?_⟩
          cases ms with
          | nil => simp [written, Link.text, List.getLast?_cons]
          | cons m ms =>
              have hlast := (ih (List.cons_ne_nil _ _) (fun n hn => h n (List.mem_cons_of_mem _ hn))
                false).2
              rw [written, List.getLast?_append, hlast, Option.some_or]

/-- **Of links in brackets, those that a text consists of are the first ones**, whatever follows it. -/
theorem exists_later {first : Bool} {ls ms : List Link} {rest : List Char} (hms : ∀ m ∈ ms, m.Bracketed)
    (h : written first ls ++ rest = written first ms) :
    ∃ later, ms = ls ++ later ∧ rest = written false later := by
  induction ls generalizing first ms with
  | nil => exact ⟨ms, rfl, by rw [← written_bracketed hms first, ← h, written, List.nil_append]⟩
  | cons l ls ih =>
      cases ms with
      | nil => exact absurd h (by simp [written, l.text_ne_nil])
      | cons m ms =>
          have hbracketed := hms m List.mem_cons_self
          cases m with
          | name => exact hbracketed.elim
          | index lead' y trail' hlead' htrail' =>
              rw [written, written, List.append_assoc] at h
              cases l with
              | name s hne hchars => exact absurd h (name_ne_bracket hne hchars)
              | index lead x trail hlead htrail =>
                  have hinner := (List.cons.inj h).2
                  simp only [List.append_eq, List.append_assoc, List.singleton_append] at hinner
                  obtain ⟨rfl, rfl, rfl, hrest⟩ := index_unique hlead hlead' htrail htrail' hinner
                  obtain ⟨later, rfl, hlater⟩ := ih (fun m hm => hms m (List.mem_cons_of_mem _ hm)) hrest
                  exact ⟨later, rfl, hlater⟩

/-- Links in a row are told by their text. -/
theorem written_unique {first : Bool} {ls ms : List Link} (h : written first ls = written first ms) :
    ls = ms := by
  induction ls generalizing first ms with
  | nil =>
      cases ms with
      | nil => rfl
      | cons m ms => exact absurd h.symm (by simp [written, m.text_ne_nil])
  | cons l ls ih =>
      cases ms with
      | nil => exact absurd h (by simp [written, l.text_ne_nil])
      | cons m ms =>
          obtain ⟨rfl, hrest⟩ := link_unique (fun _ => head_written) (fun _ => head_written) h
          rw [ih hrest]

/-- A phrase has a text. -/
theorem Phrase.text_ne_nil (p : Phrase) : p.text ≠ [] := by
  obtain ⟨l, ls, hls⟩ := List.exists_cons_of_ne_nil p.ne_nil
  rw [text, hls]
  simp [written, l.text_ne_nil]

/-- **The grammar is unambiguous**: a text is that of at most one phrase. -/
theorem Phrase.text_injective : Function.Injective Phrase.text := by
  intro p q h
  obtain ⟨ls, hls⟩ := p
  obtain ⟨ms, hms⟩ := q
  obtain rfl : ls = ms := written_unique h
  rfl

/-! ## Phrases have no blanks around them -/

/-- A link has no blanks around it. -/
theorem Link.bare_text (first : Bool) (l : Link) : Text.Bare (l.text first) := by
  cases l with
  | name s hne hchars =>
      have hname : Text.Bare s := Text.Bare.of_forall fun c hc => (hchars c hc).2.2.2
      cases first with
      | true => exact hname
      | false =>
          have hpoint : Text.Bare ['.'] := Text.Bare.singleton rfl
          exact hpoint.append hname
  | index lead x trail hlead htrail =>
      have hopen : Text.Bare ['['] := Text.Bare.singleton rfl
      have hclose : Text.Bare [']'] := Text.Bare.singleton rfl
      have hbrackets := hopen.around (by simp) hclose (by simp) (lead ++ (x.text ++ trail))
      simpa [text] using hbrackets

/-- Links in a row have no blanks around them. -/
theorem bare_written (first : Bool) (ls : List Link) : Text.Bare (written first ls) := by
  induction ls generalizing first with
  | nil => exact Text.Bare.of_forall (by simp [written])
  | cons l ls ih => exact (l.bare_text first).append (ih false)

/-- **A phrase has no blanks around it.** -/
theorem Phrase.bare_text (p : Phrase) : Text.Bare p.text := bare_written true p.links

/-- Trimming leaves the text of a phrase as it is. -/
theorem Phrase.trim_text (p : Phrase) : Text.trim p.text = p.text := Text.trim_of_bare p.bare_text

/-! ## Every row of keys is written -/

/-- A letter that stands for a character. -/
def Letter.ofChar (c : Char) : Letter '\x22' :=
  if h : c = '\x22' ∨ c = '\\' then .escaped c (by rintro rfl; simp at h)
  else .plain c (fun hc => h (Or.inl hc)) fun hc => h (Or.inr hc)

/-- A link that gives a key: its digits, or its characters in quotes. -/
def Link.ofKey : Key → Link
  | .index n => .index [] (.integer (decide (n < 0)) (Nat.toDigits 10 n.natAbs) Nat.toDigits_ne_nil
      fun _ hc => Nat.isDigit_of_mem_toDigits (by decide) (by decide) hc) []
      (fun _ h => nomatch h) fun _ h => nomatch h
  | .name s => .index [] (.quoted '\x22' (Or.inl rfl) (s.toList.map Letter.ofChar)) []
      (fun _ h => nomatch h) fun _ h => nomatch h

/-- A phrase that gives a row of keys. -/
def Phrase.ofKeys (key : Key) (keys : List Key) : Phrase :=
  ⟨(key :: keys).map Link.ofKey, List.cons_ne_nil _ _⟩

@[simp] theorem Letter.char_ofChar (c : Char) : (Letter.ofChar c).char = c := by
  unfold Letter.ofChar
  split <;> rfl

/-- The links for keys are in brackets. -/
theorem Link.bracketed_ofKeys (keys : List Key) : ∀ l ∈ keys.map ofKey, l.Bracketed := by
  intro l hl
  obtain ⟨key, -, rfl⟩ := List.mem_map.mp hl
  cases key <;> trivial

/-- The link gives the key. -/
@[simp] theorem Link.key_ofKey (key : Key) : (Link.ofKey key).key = key := by
  cases key with
  | index n =>
      have hdigits : Nat.ofDigitChars 10 (Nat.toDigits 10 n.natAbs) 0 = n.natAbs :=
        Nat.ofDigitChars_toDigits (by decide) (by decide)
      simp only [ofKey, key, Content.key, hdigits, decide_eq_true_eq, Key.index.injEq]
      split <;> omega
  | name s =>
      have hchars : (s.toList.map Letter.ofChar).map Letter.char = s.toList := by
        simp [List.map_map, Function.comp_def]
      simp only [ofKey, key, Content.key, hchars, String.ofList_toList]

/-- **Every row of keys is written**: the phrase gives them. -/
theorem Phrase.keys_ofKeys (key : Key) (keys : List Key) : (ofKeys key keys).keys = key :: keys := by
  simp [ofKeys, Phrase.keys, Function.comp_def]

end Stencil.Path
