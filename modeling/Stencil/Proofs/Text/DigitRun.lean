import Mathlib.Data.List.Infix
import Stencil.Proofs.Directive.PathText
import Stencil.Proofs.Path.Reading
import Stencil.Tree.Basic

/-! # Runs of digits

Reading meets the digit limit only where a text really holds that many digits in a row.

* `DigitRunsFit s` bounds the runs of digits, of any script, inside `s`.
* `Path.parse_ne_limit`, `Operand.parse_ne_limit`, `Condition.parse_ne_limit`,
  `Iteration.parse_ne_limit` and `Segment.scan_ne_limit` say that under this bound no reader reports
  the limit. -/

namespace Stencil

/-- **No run of digits is beyond the limit.** -/
def DigitRunsFit (s : List Char) : Prop :=
  ∀ run, run <:+: s → (∀ c ∈ run, Text.isDecimalDigit c = true) → run.length ≤ Limit.digits

/-- A text within the limit holds no longer run. -/
theorem digitRunsFit_of_length_le {s : List Char} (h : s.length ≤ Limit.digits) : DigitRunsFit s :=
  fun _ hrun _ => hrun.length_le.trans h

/-- The bound carries over to every part of a text. -/
theorem DigitRunsFit.of_isInfix {s t : List Char} (h : DigitRunsFit s) (ht : t <:+: s) :
    DigitRunsFit t :=
  fun run hrun hdigits => h run (hrun.trans ht) hdigits

/-- The bound carries over to every end of a text. -/
theorem DigitRunsFit.of_suffix {s t : List Char} (h : DigitRunsFit s) (ht : t <:+ s) :
    DigitRunsFit t :=
  h.of_isInfix ht.isInfix

/-! ## Parts of a text -/

theorem trimLeft_suffix (s : List Char) : Text.trimLeft s <:+ s := List.dropWhile_suffix _

theorem trim_isInfix (s : List Char) : Text.trim s <:+: s := by
  have hright : Text.trim s <+: Text.trimLeft s := by
    rw [Text.trim, Text.trimRight, ← List.reverse_suffix, List.reverse_reverse]
    exact List.dropWhile_suffix _
  exact hright.isInfix.trans (trimLeft_suffix s).isInfix

/-- Digits at the front of a text are no more than the bound allows, whatever values they have. -/
theorem DigitRunsFit.length_digits_le {s : List Char} (h : DigitRunsFit s) {p : Char → Bool}
    (hp : ∀ c, p c = true → Text.isDecimalDigit c = true) (value : Char → Option Nat) :
    ((s.takeWhile p).filterMap value).length ≤ Limit.digits := by
  have hfront : s.takeWhile p <+: s := List.takeWhile_prefix _
  refine (List.length_filterMap_le _ _).trans (h _ hfront.isInfix ?_)
  intro c hc
  exact hp c (List.all_eq_true.mp List.all_takeWhile c hc)

theorem isDecimalDigit_of_isDigit (c : Char) (h : c.isDigit = true) :
    Text.isDecimalDigit c = true := by
  rw [Text.isDecimalDigit, Text.digitValue?_of_isDigit h]
  rfl

/-- A row of digits within the limit is read. -/
theorem Decimal.read_ne_error {ds : List Nat} (h : ds.length ≤ Limit.digits) (negative : Bool)
    (l : Limit) : Decimal.read negative ds ≠ .error l := by
  rw [Decimal.read, if_pos h]
  intro he
  cases he

/-! ## Paths -/

namespace Path

/-- **A path without long runs of digits keeps to the limit.** -/
theorem parse_ne_limit {text : String} (hfit : DigitRunsFit text.toList) (l : Limit) :
    Path.parse text ≠ .error (.limit l) := by
  have htrim := hfit.of_isInfix (trim_isInfix text.toList)
  have hindexes : IndexesFit (Text.trim text.toList) := indexesFit_of_runs fun run hrun hdigits =>
    htrim run hrun fun c hc => isDecimalDigit_of_isDigit c (hdigits c hc)
  rcases exists_phrase_or_fault hindexes with ⟨p, -, hread⟩ | ⟨fault, hread⟩
  · rw [hread]
    intro h
    cases h
  · rw [hread]
    intro h
    cases h

end Path

/-! ## Operands -/

theorem Numeral.sign_suffix (s : List Char) : (Numeral.sign s).2 <:+ s := by
  unfold Numeral.sign
  split
  · exact List.suffix_cons _ _
  · exact List.suffix_cons _ _
  · exact List.suffix_refl _

/-- The digits of an integer numeral keep to the bound of its text. -/
theorem Numeral.length_le_of_read? {s : List Char} (hfit : DigitRunsFit s) {negative : Bool}
    {ds : List Nat} (h : Numeral.read? s = some (.integer negative ds)) :
    ds.length ≤ Limit.digits := by
  have hbody := hfit.of_suffix (Numeral.sign_suffix s)
  unfold Numeral.read? at h
  dsimp only at h
  split at h
  · rename_i heq
    cases h
    have hds := congrArg Prod.fst heq
    dsimp only [Numeral.digits] at hds
    rw [← hds]
    exact hbody.length_digits_le (fun c hc => hc) _
  · obtain ⟨m, -, h⟩ := Option.bind_eq_some_iff.1 h
    obtain ⟨e, -, h⟩ := Option.bind_eq_some_iff.1 h
    cases h

/-- A text without long runs of digits is read as a number, or is none, within the limit. -/
theorem Number.ofText?_ne_error {text : String} (hfit : DigitRunsFit text.toList) (l : Limit) :
    Number.ofText? text ≠ .error l := by
  have htrim := hfit.of_isInfix (trim_isInfix text.toList)
  unfold Number.ofText?
  split
  · intro h
    cases h
  · rename_i numeral hread
    intro h
    have hvalue := map_eq_error_iff.mp h
    cases numeral with
    | integer negative ds =>
        rw [Numeral.value, map_eq_error_iff] at hvalue
        exact Decimal.read_ne_error (Numeral.length_le_of_read? htrim hread) _ _ hvalue
    | decimal => cases hvalue

/-- **An operand without long runs of digits keeps to the limit.** -/
theorem Operand.parse_ne_limit {token : String} (hfit : DigitRunsFit token.toList) (l : Limit) :
    Operand.parse token ≠ .error (.limit l) := by
  have htrim : DigitRunsFit (String.ofList (Text.trim token.toList)).toList := by
    rw [String.toList_ofList]
    exact hfit.of_isInfix (trim_isInfix _)
  unfold Operand.parse
  dsimp only
  split
  · intro h
    cases h
  · split
    · intro h
      cases h
    · split
      · rename_i d hd
        exact absurd hd (Number.ofText?_ne_error htrim d)
      · intro h
        cases h
      · intro h
        exact Path.parse_ne_limit htrim l (map_eq_error_iff.mp h)

/-! ## Directives -/

theorem Condition.splitComparison?_suffix {s : List Char} {op operand : String}
    (h : Condition.splitComparison? s = some (op, operand)) : operand.toList <:+ s := by
  obtain ⟨n, -, hn⟩ := List.exists_of_findSome?_eq_some h
  dsimp only at hn
  split at hn
  · cases hn
    rw [String.toList_ofList]
    exact (trimLeft_suffix _).trans (List.drop_suffix _ _)
  · cases hn

/-- The parts of a written condition are parts of its text. -/
theorem Condition.split?_isInfix {s : List Char} {w : Condition.Written}
    (h : Condition.split? s = some w) : w.path.toList <:+: s ∧
      ∀ op operand, w.comparison = some (op, operand) → operand.toList <:+: s := by
  obtain ⟨t, -, ht, hw, -, hcomparison⟩ := Condition.of_split? h
  -- only what follows the exclamation mark is split
  have hts : t <:+ s := by
    rw [← ht]
    split
    · exact (trimLeft_suffix _).trans (List.drop_suffix _ _)
    · exact List.suffix_refl _
  refine ⟨?_, fun op operand he => ?_⟩
  · rw [hw, String.toList_ofList]
    exact (Directive.pathText_isPrefix _ t).isInfix.trans hts.isInfix
  · have hrest := (Directive.pathText_isSuffix Condition.inPath t).trans hts
    rcases hcomparison with ⟨hnone, -⟩ | ⟨c, hc, hsplit⟩
    · rw [hnone] at he
      cases he
    · obtain rfl : c = (op, operand) := Option.some.inj (hc.symm.trans he)
      exact ((splitComparison?_suffix hsplit).trans ((trimLeft_suffix _).trans hrest)).isInfix

/-- Among the errors about a path only the limit itself is reported as the limit. -/
theorem Condition.eq_limit_of_pathError {name arguments : String} {offset : Option Int}
    {e : PathError} {l : Limit} (h : Condition.pathError name arguments offset e = .limit l) :
    e = .limit l := by
  cases e with
  | malformed => cases h
  | limit => cases h; rfl

/-- **A condition without long runs of digits keeps to the limit.** -/
theorem Condition.parse_ne_limit {arguments : String} (hfit : DigitRunsFit arguments.toList)
    (offset : Option Int) (l : Limit) :
    Condition.parse arguments offset ≠ .error (.limit l) := by
  have htrim := hfit.of_isInfix (trim_isInfix _)
  unfold Condition.parse
  dsimp only
  split
  · intro h
    cases h
  · rename_i w hsplit
    obtain ⟨hpath, hoperand⟩ := Condition.split?_isInfix hsplit
    intro h
    rcases bind_eq_error_iff.mp h with h | ⟨path, -, h⟩
    · obtain ⟨d, hd, he⟩ := mapError_eq_error_iff.mp h
      exact Path.parse_ne_limit (htrim.of_isInfix hpath) l (eq_limit_of_pathError he ▸ hd)
    · split at h
      · cases h
      · rename_i spelling operand hcomparison
        split at h
        · cases h
        · rcases bind_eq_error_iff.mp h with h | ⟨_, -, h⟩
          · obtain ⟨d, hd, he⟩ := mapError_eq_error_iff.mp h
            exact Operand.parse_ne_limit (htrim.of_isInfix (hoperand _ _ hcomparison)) l
              (eq_limit_of_pathError he ▸ hd)
          · cases h

/-- **An iteration without long runs of digits keeps to the limit.** -/
theorem Iteration.parse_ne_limit {arguments : String} (hfit : DigitRunsFit arguments.toList)
    (offset : Option Int) (l : Limit) :
    Iteration.parse arguments offset ≠ .error (.limit l) := by
  have htrim := hfit.of_isInfix (trim_isInfix _)
  unfold Iteration.parse
  split
  · intro h
    cases h
  · rename_i path key value hsplit
    have hpath : path.toList <:+: Text.trim arguments.toList := by
      rw [(of_split? hsplit).1, String.toList_ofList]
      exact (Directive.pathText_isPrefix _ _).isInfix
    intro h
    rcases bind_eq_error_iff.mp h with h | ⟨path, -, h⟩
    · obtain ⟨d, hd, he⟩ := mapError_eq_error_iff.mp h
      exact Path.parse_ne_limit (htrim.of_isInfix hpath) l
        (Condition.eq_limit_of_pathError he ▸ hd)
    · cases h

/-! ## Placeholders -/

/-- A site among the pieces of a text is a part of the text. -/
theorem isInfix_of_mem_pieces {wanted : List Char → Bool} {s inner : List Char}
    (h : Markup.Piece.site inner ∈ Markup.pieces wanted s) : inner <:+: s := by
  obtain ⟨before, after, heq⟩ := List.append_of_mem h
  refine ⟨before.flatMap Markup.Piece.text ++ ['$', '{'],
    '}' :: after.flatMap Markup.Piece.text, ?_⟩
  conv_rhs => rw [← Markup.flatMap_text_pieces wanted s, heq]
  simp [Markup.Piece.siteText]

/-- **A text without long runs of digits keeps to the limit.** -/
theorem Segment.scan_ne_limit {text : String} (hfit : DigitRunsFit text.toList) (l : Limit) :
    Segment.scan text ≠ .error l := by
  intro h
  obtain ⟨inner, hmem, hparse⟩ := exists_site_of_eq_error h
  have hinner : DigitRunsFit (String.ofList inner).toList := by
    rw [String.toList_ofList]
    exact hfit.of_isInfix (isInfix_of_mem_pieces hmem)
  exact Path.parse_ne_limit hinner l hparse

end Stencil
