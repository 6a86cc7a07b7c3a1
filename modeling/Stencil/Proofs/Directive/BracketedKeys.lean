import Stencil.Proofs.Condition.Spelling
import Stencil.Proofs.Iteration.Spelling

/-! # Keys in brackets

A row of keys, each one written in brackets, as a path of its own and inside of directives. A path quotes
its keys, so that it is read whatever they are. A directive takes a bracket group to end with its first
closing bracket, whether this one is quoted or not, and what is left of the key must not end the path.

* `Directive.Sheltered` says that nothing in a key ends the path outside of bracket groups.
* `Directive.isRun_bracketed`: the text of a row of keys is split off as a whole iff all of its names are
  sheltered.
* `Path.exists_fault_of_cut`: if it is not, then what is split off is no path.
* `Directive.parse_bracketed` is the result, for paths, for conditions and for iterations. -/

namespace Stencil

/-! ## Runs from bracket to bracket -/

namespace Directive

variable {inPath : Char → Bool}

/-- The **last bracket** of a text, which stands behind a bracket `b`. -/
def lastBracket (b : Char) (s : List Char) : Char :=
  s.foldl (fun b c => if c = '[' ∨ c = ']' then c else b) b

/-- A text behind a bracket is **sheltered** if the last bracket before each character that ends a path is
an opening one. -/
def Sheltered (inPath : Char → Bool) (b : Char) (s : List Char) : Prop :=
  ∀ i (_ : i < s.length), s[i] ≠ '[' → inPath s[i] = false → lastBracket b (s.take i) = '['

instance (inPath : Char → Bool) (b : Char) (s : List Char) : Decidable (Sheltered inPath b s) :=
  inferInstanceAs (Decidable
    (∀ i (_ : i < s.length), s[i] ≠ '[' → inPath s[i] = false → lastBracket b (s.take i) = '['))

theorem sheltered_nil {b : Char} : Sheltered inPath b [] := fun _ h => absurd h (Nat.not_lt_zero _)

/-- Whether a text is sheltered, told from its first character. -/
theorem sheltered_cons {b c : Char} {s : List Char} :
    Sheltered inPath b (c :: s) ↔ (c ≠ '[' → inPath c = false → b = '[') ∧
      Sheltered inPath (if c = '[' ∨ c = ']' then c else b) s := by
  constructor
  · exact fun h => ⟨h 0 (Nat.zero_lt_succ _), fun i hi => h (i + 1) (Nat.succ_lt_succ hi)⟩
  · rintro ⟨hhead, htail⟩ i hi
    cases i with
    | zero => exact hhead
    | succ i => exact htail i (Nat.lt_of_succ_lt_succ hi)

/-- A character of the class that is no bracket does not matter. -/
theorem sheltered_cons_inPath {b c : Char} {s : List Char} (hc : inPath c = true) (hopen : c ≠ '[')
    (hclose : c ≠ ']') : Sheltered inPath b (c :: s) ↔ Sheltered inPath b s := by
  simp [sheltered_cons, hc, hopen, hclose]

/-- Within one group everything is sheltered. -/
theorem sheltered_of_not_mem {s : List Char} (h : ']' ∉ s) : Sheltered inPath '[' s := by
  induction s with
  | nil => exact sheltered_nil
  | cons c s ih =>
      obtain ⟨hc, hs⟩ := List.ne_and_not_mem_of_not_mem_cons h
      have hlast : (if c = '[' ∨ c = ']' then c else '[') = '[' := by
        split
        · rename_i hbracket
          exact hbracket.resolve_right (Ne.symm hc)
        · rfl
      rw [sheltered_cons, hlast]
      exact ⟨fun _ _ => rfl, ih hs⟩

/-- What a run is that does not begin with an opening bracket. -/
theorem isRun_cons {c : Char} {s : List Char} (hc : c ≠ '[') :
    IsRun inPath (c :: s) ↔ inPath c = true ∧ IsRun inPath s := by
  constructor
  · intro h
    cases h with
    | char _ hin hs => exact ⟨hin, hs⟩
    | group => exact absurd rfl hc
  · rintro ⟨hin, hs⟩
    exact .char hc hin hs

/-- What a run is that begins with an opening bracket. -/
theorem isRun_open {s : List Char} : IsRun inPath ('[' :: s) ↔
    ∃ inside rest, s = inside ++ ']' :: rest ∧ ']' ∉ inside ∧ IsRun inPath rest := by
  constructor
  · intro h
    cases h with
    | char hopen => exact absurd rfl hopen
    | group hinside hs => exact ⟨_, _, rfl, hinside, hs⟩
  · rintro ⟨inside, rest, rfl, hinside, hrest⟩
    exact .group hinside hrest

/-- A closing bracket ends its group. -/
theorem isRun_open_close {s : List Char} : IsRun inPath ('[' :: ']' :: s) ↔ IsRun inPath s := by
  rw [isRun_open]
  constructor
  · rintro ⟨inside, rest, hs, hinside, hrest⟩
    cases inside with
    | nil =>
        obtain rfl : s = rest := (List.cons.inj hs).2
        exact hrest
    | cons c inside =>
        have hc : ']' = c := (List.cons.inj hs).1
        exact absurd (hc ▸ List.mem_cons_self) hinside
  · exact fun h => ⟨[], s, rfl, List.not_mem_nil, h⟩

/-- Any other character within a group does not matter. -/
theorem isRun_open_cons {c : Char} {s : List Char} (hc : c ≠ ']') :
    IsRun inPath ('[' :: c :: s) ↔ IsRun inPath ('[' :: s) := by
  rw [isRun_open, isRun_open]
  constructor
  · rintro ⟨inside, rest, hs, hinside, hrest⟩
    cases inside with
    | nil => exact absurd (List.cons.inj hs).1 hc
    | cons d inside =>
        exact ⟨inside, rest, (List.cons.inj hs).2, fun h => hinside (List.mem_cons_of_mem _ h), hrest⟩
  · rintro ⟨inside, rest, rfl, hinside, hrest⟩
    exact ⟨c :: inside, rest, rfl, List.not_mem_cons_of_ne_of_not_mem (Ne.symm hc) hinside, hrest⟩

/-- **From a bracket to a closing one there is a run iff the text between them is sheltered.** The first
bracket is an opening one that belongs to the run, or a closing one before it. -/
theorem isRun_between (hclose : inPath ']' = true) (s rest : List Char) :
    (IsRun inPath ('[' :: (s ++ ']' :: rest)) ↔ Sheltered inPath '[' s ∧ IsRun inPath rest) ∧
    (IsRun inPath (s ++ ']' :: rest) ↔ Sheltered inPath ']' s ∧ IsRun inPath rest) := by
  induction s with
  | nil =>
      refine ⟨?_, ?_⟩
      · simp [isRun_open_close, sheltered_nil]
      · simp [isRun_cons, hclose, sheltered_nil]
  | cons c s ih =>
      obtain ⟨ihopen, ihclosed⟩ := ih
      refine ⟨?_, ?_⟩
      · by_cases hc : c = ']'
        · subst hc
          simp [isRun_open_close, ihclosed, sheltered_cons]
        · have hlast : (if c = '[' ∨ c = ']' then c else '[') = '[' := by simp [hc]
          rw [List.cons_append, isRun_open_cons hc, ihopen, sheltered_cons, hlast]
          simp
      · by_cases hc : c = '['
        · subst hc
          simp [ihopen, sheltered_cons]
        · have hlast : (if c = '[' ∨ c = ']' then c else ']') = ']' := by simp [hc]
          rw [List.cons_append, isRun_cons hc, ihclosed, sheltered_cons, hlast, ← and_assoc]
          simp [hc]

/-! ## The text of a row of keys -/

/-- A class **takes quotes** if quotes, backslashes and closing brackets belong to it. -/
structure TakesQuotes (inPath : Char → Bool) : Prop where
  /-- The double quote belongs to it. -/
  quote : inPath '\x22' = true
  /-- The backslash belongs to it. -/
  backslash : inPath '\\' = true
  /-- The closing bracket belongs to it. -/
  close : inPath ']' = true

/-- Quoting a name, and escaping its characters, does not matter. -/
theorem sheltered_letters (hclass : TakesQuotes inPath) (s : List Char) (b : Char) :
    Sheltered inPath b ((s.map Path.Letter.ofChar).flatMap Path.Letter.text ++ ['\x22']) ↔
      Sheltered inPath b s := by
  have hquote {b : Char} {t : List Char} : Sheltered inPath b ('\x22' :: t) ↔ Sheltered inPath b t :=
    sheltered_cons_inPath hclass.quote (by decide) (by decide)
  have hbackslash {b : Char} {t : List Char} : Sheltered inPath b ('\\' :: t) ↔ Sheltered inPath b t :=
    sheltered_cons_inPath hclass.backslash (by decide) (by decide)
  induction s generalizing b with
  | nil => exact hquote
  | cons c s ih =>
      rw [List.map_cons, List.flatMap_cons, List.append_assoc]
      have hc : (Path.Letter.ofChar c).text = ['\\', c] ∧ (c = '\x22' ∨ c = '\\') ∨
          (Path.Letter.ofChar c).text = [c] := by
        unfold Path.Letter.ofChar
        split
        · rename_i hc
          exact Or.inl ⟨rfl, hc⟩
        · exact Or.inr rfl
      rcases hc with ⟨htext, hc⟩ | htext
      · have hchar {t : List Char} : Sheltered inPath b (c :: t) ↔ Sheltered inPath b t := by
          rcases hc with rfl | rfl
          · exact hquote
          · exact hbackslash
        rw [htext, List.cons_append, List.cons_append, List.nil_append, hbackslash, hchar, hchar]
        exact ih b
      · rw [htext, List.cons_append, List.nil_append, sheltered_cons, sheltered_cons]
        exact and_congr_right fun _ => ih _

/-- **A key in brackets is part of a run iff its name is sheltered**; an integer always is. -/
theorem isRun_ofKey (hclass : TakesQuotes inPath) (key : Key) (first : Bool) (rest : List Char) :
    IsRun inPath ((Path.Link.ofKey key).text first ++ rest) ↔
      (∀ s, key = .name s → Sheltered inPath '[' s.toList) ∧ IsRun inPath rest := by
  cases key with
  | index n =>
      have hclose : ']' ∉ (if decide (n < 0) then ['-'] else []) ++ Nat.toDigits 10 n.natAbs := by
        intro h
        have hinteger := Path.integer_run (decide (n < 0))
          (fun _ hc => Nat.isDigit_of_mem_toDigits (by decide) (by decide) hc) ']' h
        cases hinteger
      have htext : (Path.Link.ofKey (.index n)).text first ++ rest =
          '[' :: (((if decide (n < 0) then ['-'] else []) ++ Nat.toDigits 10 n.natAbs) ++ ']' :: rest) := by
        simp [Path.Link.ofKey, Path.Link.text, Path.Content.text]
      rw [htext, (isRun_between hclass.close _ rest).1]
      constructor
      · rintro ⟨-, hrest⟩
        refine ⟨fun s hs => ?_, hrest⟩
        cases hs
      · rintro ⟨-, hrest⟩
        exact ⟨sheltered_of_not_mem hclose, hrest⟩
  | name s =>
      have htext : (Path.Link.ofKey (.name s)).text first ++ rest =
          '[' :: (('\x22' :: ((s.toList.map Path.Letter.ofChar).flatMap Path.Letter.text ++ ['\x22'])) ++
            ']' :: rest) := by
        simp [Path.Link.ofKey, Path.Link.text, Path.Content.text]
      rw [htext, (isRun_between hclass.close _ rest).1,
        sheltered_cons_inPath hclass.quote (by decide) (by decide), sheltered_letters hclass]
      simp

/-- **A row of keys is a run iff all of its names are sheltered.** -/
theorem isRun_written_ofKey (hclass : TakesQuotes inPath) (keys : List Key) (first : Bool) :
    IsRun inPath (Path.written first (keys.map Path.Link.ofKey)) ↔
      ∀ s, .name s ∈ keys → Sheltered inPath '[' s.toList := by
  induction keys generalizing first with
  | nil => simp [Path.written, IsRun.nil]
  | cons key keys ih =>
      rw [List.map_cons, Path.written, isRun_ofKey hclass, ih]
      simp only [List.mem_cons]
      constructor
      · rintro ⟨hkey, hkeys⟩ s (hs | hs)
        · exact hkey s hs.symm
        · exact hkeys s hs
      · exact fun h => ⟨fun s hs => h s (Or.inl hs.symm), fun s hs => h s (Or.inr hs)⟩

/-- A text that ends with a bracket, and is no run, is **cut** by a character that ends a path. -/
theorem exists_cut {s : List Char} (hlast : s.getLast? = some ']') (h : ¬IsRun inPath s) :
    ∃ p c rest, s = p ++ c :: rest ∧ IsRun inPath p ∧ c ≠ '[' ∧ inPath c = false := by
  have happend := pathText_append inPath s
  have hrun := isRun_pathText inPath s
  cases hrest : (pathText inPath s).2 with
  | nil =>
      rw [hrest, List.append_nil] at happend
      exact absurd (happend ▸ hrun) h
  | cons c rest =>
      rw [hrest] at happend
      rcases head_pathText inPath s hrest with ⟨rfl, hclosed⟩ | ⟨hopen, hc⟩
      · -- the last bracket would close the group
        rw [← happend, List.getLast?_append, List.getLast?_cons] at hlast
        have hmem : ']' ∈ '[' :: rest := by
          refine List.mem_of_getLast? ?_
          rw [List.getLast?_cons]
          simpa using hlast
        exact absurd ((List.mem_cons.mp hmem).resolve_left (by decide)) hclosed
      · exact ⟨_, c, rest, happend.symm, hrun, hopen, hc⟩

end Directive

/-! ## Whole texts of keys -/

/-- The **text in brackets** of a row of keys: integers as they are, and names in double quotes, with a
backslash before each double quote and each backslash in them. -/
def Path.bracketed (key : Key) (keys : List Key) : String := String.ofList (Phrase.ofKeys key keys).text

section Bracketed

variable {inPath : Char → Bool} {key : Key} {keys : List Key}

theorem Path.toList_bracketed :
    (bracketed key keys).toList = written true ((key :: keys).map Link.ofKey) := String.toList_ofList

/-- A text in brackets begins and ends with one. -/
theorem Path.ends_toList_bracketed : (bracketed key keys).toList.head? = some '[' ∧
    (bracketed key keys).toList.getLast? = some ']' := by
  rw [toList_bracketed]
  exact ends_bracketed (by simp) (Link.bracketed_ofKeys (key :: keys)) true

theorem Path.toList_bracketed_ne_nil : (bracketed key keys).toList ≠ [] := by
  have hhead := (@ends_toList_bracketed key keys).1
  intro hnil
  rw [hnil] at hhead
  cases hhead

/-- A text in brackets has no blanks around it. -/
theorem Path.bare_bracketed : Text.Bare (bracketed key keys).toList := by
  rw [toList_bracketed]
  exact bare_written true _

/-- **A text in brackets is read as its keys.** -/
theorem Path.read_bracketed (hfit : ∀ n, .index n ∈ key :: keys → n.natAbs < 10 ^ Limit.digits) :
    parse (bracketed key keys) = .ok ⟨bracketed key keys, key :: keys⟩ := by
  have hread := parse_ofKeys hfit
  rwa [Text.trimmed, ← bracketed, Text.trim_of_bare bare_bracketed, String.ofList_toList] at hread

/-- A text in brackets is a run iff all names in it are sheltered. -/
theorem Directive.isRun_bracketed (hclass : TakesQuotes inPath) :
    IsRun inPath (Path.bracketed key keys).toList ↔
      ∀ s, .name s ∈ key :: keys → Sheltered inPath '[' s.toList := by
  rw [Path.toList_bracketed]
  exact isRun_written_ofKey hclass (key :: keys) true

end Bracketed

/-! ## What is cut off -/

/-- **What is cut off a row of keys is no path**, when its indexes fit and the next key does not begin
behind it. -/
theorem Path.exists_fault_of_cut {keys : List Key}
    (hfit : ∀ n, .index n ∈ keys → n.natAbs < 10 ^ Limit.digits) {p rest : List Char} {c : Char}
    (hp : Text.Bare p) (hc : c ≠ '[') (h : p ++ c :: rest = written true (keys.map Link.ofKey)) :
    ∃ fault, parse (String.ofList p) = .error (.malformed (String.ofList p) fault) := by
  have hbracketed := Link.bracketed_ofKeys keys
  have htrim : Text.trim (String.ofList p).toList = p := by
    rw [String.toList_ofList, Text.trim_of_bare hp]
  have hindexes : IndexesFit (Text.trim (String.ofList p).toList) := by
    intro ls after hls l hl
    have hwhole : written true ls ++ (after ++ c :: rest) = written true (keys.map Link.ofKey) := by
      rw [← List.append_assoc, hls, htrim, h]
    obtain ⟨later, hlater, -⟩ := exists_later hbracketed hwhole
    exact Link.fits_ofKeys hfit l (hlater ▸ List.mem_append_left _ hl)
  rcases exists_phrase_or_fault hindexes with ⟨w, hw, -⟩ | hfault
  · have hwhole : written true w.links ++ c :: rest = written true (keys.map Link.ofKey) := by
      rw [← h, ← htrim, ← hw]
      rfl
    obtain ⟨later, hlater, hrest⟩ := exists_later hbracketed hwhole
    -- the next key would begin behind it
    have hne : later ≠ [] := by
      rintro rfl
      cases hrest
    have hhead := (ends_bracketed hne (fun m hm =>
      hbracketed m (hlater ▸ List.mem_append_right _ hm)) false).1
    rw [← hrest] at hhead
    exact absurd (Option.some.inj hhead) hc
  · exact hfault

/-- **If the text of a row of keys is no run, then what is split off it is no path**, whatever is behind
it. -/
theorem Directive.exists_fault_of_not_run {inPath : Char → Bool}
    (hclass : ∀ c, inPath c = true → Text.isBlank c = false) {key : Key} {keys : List Key}
    (hfit : ∀ n, .index n ∈ key :: keys → n.natAbs < 10 ^ Limit.digits)
    (hrun : ¬IsRun inPath (Path.bracketed key keys).toList) (suffix : List Char) :
    ∃ text fault, Path.parse
      (String.ofList (pathText inPath ((Path.bracketed key keys).toList ++ suffix)).1) =
        .error (.malformed text fault) := by
  obtain ⟨p, c, rest, hcut, hp, hopen, hc⟩ := exists_cut Path.ends_toList_bracketed.2 hrun
  obtain ⟨fault, hfault⟩ := Path.exists_fault_of_cut hfit (hp.bare hclass) hopen
    (hcut.symm.trans Path.toList_bracketed)
  refine ⟨String.ofList p, fault, ?_⟩
  rw [hcut, List.append_assoc, List.cons_append, hp.pathText_append]
  · exact hfault
  · intro d hd
    cases hd
    exact ⟨hopen, hc⟩

/-! ## Conditions and iterations -/

/-- A condition is reported if what is split off its text is no path. -/
theorem Condition.exists_fault_of_path {arguments text : String} {fault : PathFault}
    (hmark : (Text.trim arguments.toList).head? ≠ some '!')
    (hpath : Path.parse (String.ofList (Directive.pathText inPath (Text.trim arguments.toList)).1) =
      .error (.malformed text fault)) (offset : Option Int) :
    ∃ fault, parse arguments offset = .error (.invalidDirective directive arguments fault offset) := by
  unfold parse
  dsimp only
  split
  · exact ⟨_, rfl⟩
  · rename_i w hsplit
    obtain ⟨t, hnegated, ht, hw, -⟩ := of_split? hsplit
    -- without a mark of negation the whole text is split
    have hplain : w.negated = false := by
      rw [← hnegated, beq_eq_false_iff_ne]
      exact hmark
    rw [hplain, if_neg Bool.false_ne_true] at ht
    rw [hw, ← ht, hpath]
    exact ⟨_, rfl⟩

/-- An iteration is reported if what is split off its text is no path. -/
theorem Iteration.exists_fault_of_path {arguments text : String} {fault : PathFault}
    (hpath : Path.parse (String.ofList (Directive.pathText inPath (Text.trim arguments.toList)).1) =
      .error (.malformed text fault)) (offset : Option Int) :
    ∃ fault, parse arguments offset = .error (.invalidDirective directive arguments fault offset) := by
  unfold parse
  split
  · exact ⟨_, rfl⟩
  · rename_i path key value hsplit
    rw [(of_split? hsplit).1, hpath]
    exact ⟨_, rfl⟩

/-- A condition that consists of a path asks whether it counts as true. -/
theorem Condition.parse_of_run {arguments : String} {path : Path}
    (hrun : Directive.IsRun inPath (Text.trim arguments.toList))
    (hpath : Path.parse (String.ofList (Text.trim arguments.toList)) = .ok path) (offset : Option Int) :
    parse arguments offset = .ok ⟨false, path, .truthy⟩ := by
  have hne : Text.trim arguments.toList ≠ [] := by
    intro hnil
    rw [hnil] at hpath
    cases hpath
  have hsplit := @split?_append false [] _ [] (List.forall_mem_nil _) hrun hne (by simp)
  rw [if_neg Bool.false_ne_true, List.nil_append, List.append_nil] at hsplit
  exact parse_of_path hsplit hpath

/-- Between a path and a name there is nothing to be trimmed. -/
theorem Iteration.trim_as {arguments : String} (hbare : Text.Bare arguments.toList)
    (hne : arguments.toList ≠ []) :
    Text.trim (arguments ++ " as v").toList = arguments.toList ++ " as v".toList := by
  have hvalue : Text.Bare ['v'] := Text.Bare.singleton rfl
  rw [String.toList_append]
  exact Text.trim_of_bare (hbare.around hne hvalue (List.cons_ne_nil _ _) " as ".toList)

/-- An iteration over what is a path, with the name "v" for the values. -/
theorem Iteration.parse_of_run {arguments : String} {path : Path}
    (hrun : Directive.IsRun inPath arguments.toList) (hpath : Path.parse arguments = .ok path)
    (offset : Option Int) : parse (arguments ++ " as v") offset = .ok ⟨path, "v", none⟩ := by
  have hne : arguments.toList ≠ [] := by
    intro hnil
    rw [← String.ofList_toList (s := arguments), hnil] at hpath
    cases hpath
  have hgap : Text.AllBlank " ".toList := by decide
  have hvalue : ∀ c ∈ "v".toList, Text.isWord c = true := List.all_eq_true.mp (by decide)
  refine parse_eq_ok_iff_spelled.mpr ⟨⟨arguments.toList, hne, hrun, ⟨" ".toList, by decide, hgap⟩,
    ⟨" ".toList, by decide, hgap⟩, .value ⟨"v".toList, by decide, hvalue⟩⟩, ?_, ?_, rfl, rfl⟩
  · rw [trim_as (hrun.bare fun _ => isBlank_of_inPath) hne]
    rfl
  · rw [String.ofList_toList]
    exact hpath

namespace Directive

theorem takesQuotes_condition : TakesQuotes Condition.inPath := ⟨by decide, by decide, by decide⟩

theorem takesQuotes_iteration : TakesQuotes Iteration.inPath := ⟨by decide, by decide, by decide⟩

section Bracketed

variable {key : Key} {keys : List Key}

/-- **A row of keys in a condition** is read if the names are sheltered, and reported if they are not. -/
theorem condition_bracketed (hfit : ∀ n, .index n ∈ key :: keys → n.natAbs < 10 ^ Limit.digits)
    (offset : Option Int) :
    ((∀ s, .name s ∈ key :: keys → Sheltered Condition.inPath '[' s.toList) →
      Condition.parse (Path.bracketed key keys) offset =
        .ok ⟨false, ⟨Path.bracketed key keys, key :: keys⟩, .truthy⟩) ∧
    ((∃ s, .name s ∈ key :: keys ∧ ¬Sheltered Condition.inPath '[' s.toList) →
      ∃ fault, Condition.parse (Path.bracketed key keys) offset =
        .error (.invalidDirective Condition.directive (Path.bracketed key keys) fault offset)) := by
  have htrim : Text.trim (Path.bracketed key keys).toList = (Path.bracketed key keys).toList :=
    Text.trim_of_bare Path.bare_bracketed
  constructor
  · intro hall
    refine Condition.parse_of_run ?_ ?_ offset
    · rw [htrim]
      exact (isRun_bracketed takesQuotes_condition).mpr hall
    · rw [htrim, String.ofList_toList]
      exact Path.read_bracketed hfit
  · rintro ⟨s, hs, hsheltered⟩
    obtain ⟨text, fault, hfault⟩ := exists_fault_of_not_run
      (fun _ hc => (Condition.inPath_iff.mp hc).1) hfit
      (fun h => hsheltered ((isRun_bracketed takesQuotes_condition).mp h s hs)) []
    refine Condition.exists_fault_of_path ?_ (htrim ▸ List.append_nil _ ▸ hfault) offset
    rw [htrim, Path.ends_toList_bracketed.1]
    decide

/-- **A row of keys in an iteration** is read if the names are sheltered, and reported if they are not. -/
theorem iteration_bracketed (hfit : ∀ n, .index n ∈ key :: keys → n.natAbs < 10 ^ Limit.digits)
    (offset : Option Int) :
    ((∀ s, .name s ∈ key :: keys → Sheltered Iteration.inPath '[' s.toList) →
      Iteration.parse (Path.bracketed key keys ++ " as v") offset =
        .ok ⟨⟨Path.bracketed key keys, key :: keys⟩, "v", none⟩) ∧
    ((∃ s, .name s ∈ key :: keys ∧ ¬Sheltered Iteration.inPath '[' s.toList) →
      ∃ fault, Iteration.parse (Path.bracketed key keys ++ " as v") offset =
        .error (.invalidDirective Iteration.directive (Path.bracketed key keys ++ " as v") fault
          offset)) := by
  constructor
  · intro hall
    exact Iteration.parse_of_run ((isRun_bracketed takesQuotes_iteration).mpr hall)
      (Path.read_bracketed hfit) offset
  · rintro ⟨s, hs, hsheltered⟩
    obtain ⟨text, fault, hfault⟩ := exists_fault_of_not_run (fun _ => Iteration.isBlank_of_inPath) hfit
      (fun h => hsheltered ((isRun_bracketed takesQuotes_iteration).mp h s hs)) " as v".toList
    have htrim := Iteration.trim_as (@Path.bare_bracketed key keys) Path.toList_bracketed_ne_nil
    exact Iteration.exists_fault_of_path (htrim ▸ hfault) offset

/-- **A row of keys in brackets is read everywhere if its names are sheltered.** As a path it is read
whatever its names are; in a condition and in an iteration it is the same path if they are sheltered from
what ends a path there, and otherwise it is reported. -/
theorem parse_bracketed (hfit : ∀ n, .index n ∈ key :: keys → n.natAbs < 10 ^ Limit.digits)
    (offset : Option Int) :
    Path.parse (Path.bracketed key keys) = .ok ⟨Path.bracketed key keys, key :: keys⟩ ∧
    (((∀ s, .name s ∈ key :: keys → Sheltered Condition.inPath '[' s.toList) →
      Condition.parse (Path.bracketed key keys) offset =
        .ok ⟨false, ⟨Path.bracketed key keys, key :: keys⟩, .truthy⟩) ∧
    ((∃ s, .name s ∈ key :: keys ∧ ¬Sheltered Condition.inPath '[' s.toList) →
      ∃ fault, Condition.parse (Path.bracketed key keys) offset =
        .error (.invalidDirective Condition.directive (Path.bracketed key keys) fault offset))) ∧
    ((∀ s, .name s ∈ key :: keys → Sheltered Iteration.inPath '[' s.toList) →
      Iteration.parse (Path.bracketed key keys ++ " as v") offset =
        .ok ⟨⟨Path.bracketed key keys, key :: keys⟩, "v", none⟩) ∧
    ((∃ s, .name s ∈ key :: keys ∧ ¬Sheltered Iteration.inPath '[' s.toList) →
      ∃ fault, Iteration.parse (Path.bracketed key keys ++ " as v") offset =
        .error (.invalidDirective Iteration.directive (Path.bracketed key keys ++ " as v") fault
          offset)) :=
  ⟨Path.read_bracketed hfit, condition_bracketed hfit offset, iteration_bracketed hfit offset⟩

end Bracketed

/-- An operator character behind a closing bracket ends the path of a condition only; behind an opening one
it does not. -/
theorem parse_bracketed_operator :
    (∀ n, Key.index n ∈ [.name "a]<b", .index (-5)] → n.natAbs < 10 ^ Limit.digits) ∧
    Path.bracketed (.name "a]<b") [.index (-5)] = "[\"a]<b\"][-5]" ∧
    Path.parse "[\"a]<b\"][-5]" = .ok ⟨"[\"a]<b\"][-5]", [.name "a]<b", .index (-5)]⟩ ∧
    (∃ fault, Condition.parse "[\"a]<b\"][-5]" (some 4) =
      .error (.invalidDirective Condition.directive "[\"a]<b\"][-5]" fault (some 4))) ∧
    Iteration.parse "[\"a]<b\"][-5] as v" (some 4) =
      .ok ⟨⟨"[\"a]<b\"][-5]", [.name "a]<b", .index (-5)]⟩, "v", none⟩ ∧
    Condition.parse "[\"a][<b\"]" (some 4) =
      .ok ⟨false, ⟨"[\"a][<b\"]", [.name "a][<b"]⟩, .truthy⟩ := by
  have hfit : ∀ n, Key.index n ∈ [.name "a]<b", .index (-5)] → n.natAbs < 10 ^ Limit.digits := by
    intro n hn
    obtain rfl : n = -5 := by simpa using hn
    exact Nat.lt_of_lt_of_le (by decide) (Nat.le_self_pow (by decide) 10)
  have hname : ∀ n, Key.index n ∈ [.name "a][<b"] → n.natAbs < 10 ^ Limit.digits := by simp
  have htext : Path.bracketed (.name "a]<b") [.index (-5)] = "[\"a]<b\"][-5]" := by decide +kernel
  have hother : Path.bracketed (.name "a][<b") [] = "[\"a][<b\"]" := by decide +kernel
  have hread := parse_bracketed hfit (some 4)
  rw [htext] at hread
  have hreopened := parse_bracketed hname (some 4)
  rw [hother] at hreopened
  refine ⟨hfit, htext, hread.1, hread.2.1.2 ⟨"a]<b", by simp, by decide⟩, hread.2.2.1 ?_,
    hreopened.2.1.1 ?_⟩
  · intro s hs
    obtain rfl : s = "a]<b" := by simpa using hs
    decide
  · intro s hs
    obtain rfl : s = "a][<b" := by simpa using hs
    decide

/-- A **key that a path takes and no directive does**. -/
theorem parse_closed_key :
    Path.bracketed (.name "a] b") [] = "[\"a] b\"]" ∧
    Path.parse "[\"a] b\"]" = .ok ⟨"[\"a] b\"]", [.name "a] b"]⟩ ∧
    Condition.parse "[\"a] b\"]" none ≠ .ok ⟨false, ⟨"[\"a] b\"]", [.name "a] b"]⟩, .truthy⟩ ∧
    Iteration.parse "[\"a] b\"] as v" none ≠ .ok ⟨⟨"[\"a] b\"]", [.name "a] b"]⟩, "v", none⟩ := by
  have hfit : ∀ n, Key.index n ∈ [.name "a] b"] → n.natAbs < 10 ^ Limit.digits := by simp
  have htext : Path.bracketed (.name "a] b") [] = "[\"a] b\"]" := by decide +kernel
  have hcondition := (condition_bracketed hfit none).2 ⟨"a] b", by simp, by decide⟩
  have hiteration := (iteration_bracketed hfit none).2 ⟨"a] b", by simp, by decide⟩
  rw [htext] at hcondition hiteration
  obtain ⟨fault, hcondition⟩ := hcondition
  obtain ⟨fault', hiteration⟩ := hiteration
  refine ⟨htext, by decide +kernel, fun h => ?_, fun h => ?_⟩
  · rw [hcondition] at h
    cases h
  · cases hiteration.symm.trans h

end Directive

end Stencil
