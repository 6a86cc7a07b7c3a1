import Stencil.Proofs.Condition.Spelling
import Stencil.Proofs.Template.Composition
import Stencil.Proofs.Template.Literal

/-! # Operands in quotes

A text in quotes is compared as it stands in the source.

* `Condition.parse_quotedTest`: a comparison with a text in quotes is read with that text, whatever it
  looks like.
* `Value.strictEqual_text_iff`: only the text itself is strictly equal to it.
* `Template.compile_quoted` follows such a text from the source to the output. -/

namespace Stencil

namespace Condition

/-- The comparison of a name with a text in quotes. -/
def quotedTest (q : Char) (s : String) : String :=
  "x === " ++ (String.singleton q ++ s ++ String.singleton q)

/-- The condition that it is. -/
def sameText (s : String) : Condition :=
  ⟨false, ⟨"x", [.name "x"]⟩, .compare .same (.literal (.text s))⟩

/-- The comparison as a spelling. -/
def quotedSpelling (q : Char) (s : String) : Spelling where
  lead := []
  negated := false
  inner := []
  path := ['x']
  before := [' ']
  operator := ['=', '=', '=']
  after := [' ']
  operand := q :: (s.toList ++ [q])
  tail := []
  blanks := by decide
  run := .char (by decide) rfl .nil

/-- **A comparison with a text in quotes is read with that text**, if it does not hold the quote. -/
theorem parse_quotedTest {q : Char} (hq : q ∈ Operand.quotes) {s : String} (hs : q ∉ s.toList)
    (offset : Option Int) : parse (quotedTest q s) offset = .ok (sameText s) := by
  have htext : quotedTest q s = String.ofList (quotedSpelling q s).text := by
    apply String.toList_inj.mp
    simp [quotedTest, quotedSpelling, Spelling.text, Spelling.front, Spelling.mark]
  have hpath : Path.parse (String.ofList ['x']) = .ok ⟨"x", [.name "x"]⟩ := by decide +kernel
  have hoperand : IsOperandText [' '] (q :: (s.toList ++ [q])) (.literal (.text (String.ofList s.toList))) :=
    .quoted q s.toList hq hs
  rw [String.ofList_toList] at hoperand
  have hop : Operator.ofSpelling? (String.ofList ['=', '=', '=']) = some .same := by decide +kernel
  obtain ⟨-, hparse, -⟩ := parse_spelling (w := quotedSpelling q s) hpath hop hoperand offset
  rw [htext, hparse]
  rfl

end Condition

/-- Strictly equal to a text is that text only. -/
theorem Value.strictEqual_text_iff {v : Value} {s : String} :
    v.strictEqual (.text s) = true ↔ v = .text s := by
  cases v with
  | text t =>
      show (t == s) = true ↔ _
      rw [beq_iff_eq, Value.text.injEq]
  | _ => simp [strictEqual, equal, atomEqual, number?]

namespace Condition

/-- What the name is bound to is what is compared. -/
theorem test?_sameText (s : String) (v : Value) :
    (sameText s).test? (.map [(.text "x", v)]) = .ok (.plain (v.strictEqual (.text s))) := by
  have hfound : Value.lookup? (Key.name "x").value [(.text "x", v)] = some v := by
    rw [Value.lookup?_cons, Value.equal_value_text]
    rfl
  have hresolve : (Value.map [(.text "x", v)]).resolve ⟨"x", [.name "x"]⟩ = .ok v := by
    rw [Value.resolve, Value.follow, Value.step, Value.entry, hfound]
    rfl
  rw [test?, left, sameText, hresolve]
  rfl

end Condition

open Render

namespace Template

/-- **A conditional text** is shown if its condition holds, from any account. -/
theorem run_conditional_ofRun {c : Condition} {entries : List (Value × Value)} {verdict : Verdict}
    (hc : c.test? (.map entries) = .ok verdict) (run source : String) (a : Account) :
    ((Template.render ⟨[.conditional c [.text (Segment.ofRun run)]], source, none⟩ (.map entries)).run a).1 =
      .ok (if verdict.holds then run else "") := by
  have hverdict := steady_inSequence.condition (.map entries) c { a with used := 0 }
  rw [Condition.outcome_render, hc] at hverdict
  rcases hrun : (c.render (.map entries)).run { a with used := 0 } with ⟨r, b⟩
  rw [hrun] at hverdict
  obtain rfl : r = .ok verdict.holds := hverdict
  show ((Branch.render none (.conditional c _) (.map entries) >>= fun first =>
    Branch.renderAll none [] (.map entries) >>= fun rest =>
      pure (first ++ rest)).run { a with used := 0 }).1 = _
  have hbranch : (Branch.render none (.conditional c [.text (Segment.ofRun run)]) (.map entries)).run
      { a with used := 0 } = (if verdict.holds then
        Branch.renderAll none [.text (Segment.ofRun run)] (.map entries) else pure "").run b :=
    run_bind_of_ok hrun
  cases hholds : verdict.holds with
  | true =>
      obtain ⟨d, hshown⟩ := Branch.run_renderAll_ofRun (.map entries) run b
      rw [hholds, if_pos rfl, hshown] at hbranch
      rw [run_bind_of_ok hbranch]
      show Except.ok (run ++ "") = _
      rw [String.append_empty]
      rfl
  | false =>
      rw [hholds] at hbranch
      rw [run_bind_of_ok hbranch]
      rfl

/-- A source that shows a letter if a value is strictly equal to a text in quotes. -/
def quotedSource (q : Char) (s : String) : String :=
  "$\x7b#if x === " ++ (String.singleton q ++ s ++ String.singleton q) ++ "\x7dA$\x7b#end if\x7d"

/-- It is the letter inside of a directive. -/
theorem quotedSource_eq (q : Char) (s : String) :
    quotedSource q s = Directive.enclosed "if" (Condition.quotedTest q s) "A" := by
  apply String.toList_inj.mp
  simp [quotedSource, Directive.enclosed, Condition.quotedTest]

/-- A letter is closed. -/
theorem closed_letter : Closed "A".toList where
  last c hc := by
    obtain rfl := Option.some.inj hc
    decide
  ended before after h := by
    have hmem : '$' ∈ "A".toList := by
      rw [h]
      simp
    exact absurd hmem (by decide)

/-- **Operands in quotes survive from source to comparison.** A text that holds neither a closing brace nor
the quote around it can be compared with in a template, whatever else it holds; and the template tells
exactly this text from all other values. -/
theorem compile_quoted {q : Char} (hq : q ∈ Operand.quotes) {s : String} (hbrace : '\x7d' ∉ s.toList)
    (hquote : q ∉ s.toList) :
    ∃ t, compile (quotedSource q s) {} = .ok t ∧ ∀ (v : Value) (a : Account),
      (v = .text s → ((t.render (.map [(.text "x", v)])).run a).1 = .ok "A") ∧
      (v ≠ .text s → ((t.render (.map [(.text "x", v)])).run a).1 = .ok "") := by
  have hletter : Tree.build (Token.scan "A") none = .ok [.text (Segment.ofRun "A")] := by
    with_unfolding_all rfl
  have harguments : '\x7d' ∉ (Condition.quotedTest q s).toList := by
    have hne : '\x7d' ≠ q := by
      rintro rfl
      exact absurd hq (by decide)
    simp [Condition.quotedTest, hne, hbrace]
  have hread : Condition.parse (Text.trimmed (Condition.quotedTest q s)) (some 0) =
      .ok (Condition.sameText s) :=
    Condition.parse_of_trim_eq (Condition.parse_quotedTest hq hquote none)
      (by rw [Text.toList_trimmed, Text.trim_trim]) _
  have hcompile := compile_directive hletter closed_letter harguments
    (Header.parse_eq_ok_iff.mpr (Or.inl ⟨rfl, _, hread, rfl⟩))
  rw [← quotedSource_eq] at hcompile
  refine ⟨_, hcompile, fun v a => ?_⟩
  have hrender := run_conditional_ofRun (Condition.test?_sameText s v) "A" (quotedSource q s) a
  constructor
  · intro hv
    exact hrender.trans (by rw [Verdict.plain, Value.strictEqual_text_iff.mpr hv]; rfl)
  · intro hv
    have hdiffer : v.strictEqual (.text s) = false := by
      rw [← Bool.not_eq_true, Value.strictEqual_text_iff]
      exact hv
    exact hrender.trans (by rw [Verdict.plain, hdiffer]; rfl)

/-- A text with blanks at its ends, a marker begun, an operator and two quotes of other kinds. -/
def unruly : String := " $\x7b#if 'y' >=\n`"

theorem compile_quoted_unruly :
    ∃ t, compile (quotedSource '\x22' unruly) {} = .ok t ∧
      ((t.render (.map [(.text "x", .text unruly)])).run .start).1 = .ok "A" ∧
      ((t.render (.map [(.text "x", .text "y")])).run .start).1 = .ok "" := by
  obtain ⟨t, ht, hrender⟩ := compile_quoted (q := '\x22') (by decide) (s := unruly) (by decide) (by decide)
  refine ⟨t, ht, (hrender _ .start).1 rfl, (hrender _ .start).2 ?_⟩
  intro h
  exact absurd (Value.text.inj h) (by decide)

end Template

end Stencil
