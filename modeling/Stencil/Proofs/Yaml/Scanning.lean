import Stencil.Proofs.Result
import Stencil.Yaml.Layout

/-! # Where the faults of a document's tokens come from

Reading the tokens of a document fails where the document is malformed, at the number of a character that
there is not, and at a version number of too many digits.

* `Yaml.Fault.OfTokens` are these faults, and `Yaml.Scans` says of a part of reading that it has no others;
  `Scans.bind` puts parts in a row.
* `Yaml.fault_of_ofText` is the result for the tokens of a text. -/

namespace Stencil.Yaml

variable {α β : Type}

/-- The faults that **tokens** can have. -/
inductive Fault.OfTokens : Fault → Prop where
  /-- The document is malformed. -/
  | malformed : OfTokens .malformed
  /-- There is no character of this number. -/
  | code (n : Nat) (f : Fault) (h : Quoted.ofCode n = .error f) : OfTokens f
  /-- A part of a version has too many digits. -/
  | version (digits : List Nat) (l : Limit) (h : Decimal.read false digits = .error l) :
      OfTokens (.construction (.value l.message))

/-- Whether a part of reading tokens **fails as tokens do**. -/
def Scans (x : Except Fault α) : Prop := ∀ f, x = .error f → f.OfTokens

theorem scans_ok (v : α) : Scans (.ok v : Except Fault α) := fun f h => by cases h

theorem scans_malformed : Scans (.error .malformed : Except Fault α) := by
  intro f h
  cases h
  exact .malformed

/-- **Parts in a row** fail as tokens do if each of them does. -/
theorem Scans.bind {x : Except Fault α} {f : α → Except Fault β} (hx : Scans x)
    (hf : ∀ v, Scans (f v)) : Scans (x >>= f) := by
  intro fault h
  rcases bind_eq_error_iff.mp h with h | ⟨v, -, h⟩
  · exact hx fault h
  · exact hf v fault h

/-- A part of which the result is used fails as the part does. -/
theorem Scans.return {x : Except Fault α} {f : α → β} (hx : Scans x) :
    Scans (x >>= fun v => pure (f v)) := hx.bind fun v => scans_ok (f v)

/-- A choice between two parts fails as tokens do if both do. -/
theorem scans_ite {p : Prop} [Decidable p] {x y : Except Fault α} (hx : Scans x) (hy : Scans y) :
    Scans (if p then x else y) := by
  split
  · exact hx
  · exact hy

/-! ## Quoted scalars -/

namespace Quoted

theorem scans_ofCode (n : Nat) : Scans (ofCode n) := fun f h => .code n f h

theorem scans_escape (s : List Char) : Scans (escape s) := by
  unfold escape
  split
  · exact scans_malformed
  · split
    · exact scans_ok _
    · dsimp only
      refine scans_ite ?_ scans_malformed
      exact (scans_ofCode _).return
    · refine scans_ite ?_ scans_malformed
      split
      · exact scans_ok _
      · exact scans_malformed

theorem scans_gap (s : List Char) : Scans (gap s) := by
  unfold gap
  dsimp only
  split
  · exact scans_malformed
  · refine scans_ite ?_ (scans_ok _)
    split
    · exact scans_ok _
    · exact scans_malformed

theorem scans_front (double : Bool) (c : Char) (rest : List Char) : Scans (front double c rest) := by
  unfold front
  refine scans_ite (scans_gap _) (scans_ite ?_ ?_)
  · exact scans_ite (scans_ok _) (scans_ite (scans_escape _) (scans_ok _))
  · exact scans_ite (scans_ite (scans_ok _) (scans_ok _)) (scans_ok _)

/-- A quoted scalar. -/
theorem scans_read (double : Bool) (s : List Char) : Scans (read double s) := by
  induction s using read.induct with
  | case1 =>
      rw [read]
      exact scans_malformed
  | case2 c rest ih =>
      rw [read]
      refine (scans_front double c rest).bind fun piece => ?_
      cases piece with
      | close => exact scans_ok _
      | piece content more => exact (ih more).return

end Quoted

/-! ## Directives -/

theorem scans_versionPart (s : List Char) : Scans (versionPart s) := by
  unfold versionPart
  refine scans_ite scans_malformed ?_
  split
  · exact scans_ok _
  · rename_i l hl
    intro f h
    cases h
    exact .version _ l hl

theorem scans_version (s : List Char) : Scans (version s) := by
  refine (scans_versionPart _).bind fun p => ?_
  dsimp only
  split
  · exact (scans_versionPart _).bind fun q => scans_ite (scans_ok _) scans_malformed
  · exact scans_malformed

theorem scans_directiveBody (s : List Char) : Scans (directiveBody s) := by
  unfold directiveBody
  dsimp only
  refine scans_ite scans_malformed (scans_ite (scans_version _) (scans_ite ?_ (scans_ok _)))
  split
  · exact scans_ok _
  · exact scans_malformed

/-- A directive. -/
theorem scans_directive (s : List Char) : Scans (directive s) := by
  refine (scans_directiveBody s).bind fun p => ?_
  dsimp only
  split
  · exact scans_ok _
  · exact scans_malformed

namespace Layout

theorem scans_dropCandidate (s : Layout) : Scans s.dropCandidate := scans_ite scans_malformed (scans_ok _)

theorem scans_dropStale (s : Layout) : Scans s.dropStale := scans_ite scans_malformed (scans_ok _)

theorem scans_addCandidate (s : Layout) : Scans s.addCandidate :=
  scans_ite (s.scans_dropCandidate).return (scans_ok _)

theorem scans_endLevels (s : Layout) : Scans s.endLevels := (scans_dropCandidate _).return

theorem scans_marker (s : Layout) (t : Token) : Scans (s.marker t) := s.scans_endLevels.return

theorem scans_directiveLine (s : Layout) (body : List Char) : Scans (s.directiveLine body) :=
  s.scans_endLevels.bind fun _ => (scans_directive body).return

theorem scans_openFlow (s : Layout) (t : Token) : Scans (s.openFlow t) := s.scans_addCandidate.return

theorem scans_closeFlow (s : Layout) (t : Token) : Scans (s.closeFlow t) :=
  scans_ite (scans_malformed.bind fun _ => s.scans_dropCandidate.return) s.scans_dropCandidate.return

theorem scans_comma (s : Layout) : Scans s.comma := s.scans_dropCandidate.return

theorem scans_levelMark (s : Layout) (level mark : Token) (keyAllowed : Bool) :
    Scans (s.levelMark level mark keyAllowed) :=
  scans_ite (scans_malformed.bind fun _ => (scans_dropCandidate _).return) (scans_dropCandidate _).return

theorem scans_colon (s : Layout) : Scans s.colon := by
  unfold colon
  split
  · exact scans_ok _
  · exact s.scans_levelMark _ _ _

theorem scans_named (s : Layout) (token : List Char → Token) : Scans (s.named token) := by
  refine s.scans_addCandidate.bind fun t => ?_
  split
  · exact scans_ok _
  · exact scans_malformed

theorem scans_tagged (s : Layout) : Scans s.tagged := by
  refine s.scans_addCandidate.bind fun t => ?_
  split
  · exact scans_ok _
  · exact scans_malformed

theorem scans_block (s : Layout) (folded : Bool) : Scans (s.block folded) := by
  refine s.scans_dropCandidate.bind fun t => ?_
  split
  · exact scans_ok _
  · exact scans_malformed

theorem scans_quoted (s : Layout) (double : Bool) : Scans (s.quoted double) :=
  s.scans_addCandidate.bind fun _ => (Quoted.scans_read double _).return

theorem scans_plain (s : Layout) : Scans s.plain := s.scans_addCandidate.return

theorem scans_readToken (s : Layout) (c : Char) (after : List Char) : Scans (s.readToken c after) := by
  unfold readToken
  dsimp only
  split
  · exact scans_ite (s.scans_directiveLine _) scans_malformed
  · exact s.scans_openFlow _
  · exact s.scans_openFlow _
  · exact s.scans_closeFlow _
  · exact s.scans_closeFlow _
  · exact s.scans_comma
  · exact s.scans_named _
  · exact s.scans_named _
  · exact s.scans_tagged
  · exact s.scans_quoted _
  · exact s.scans_quoted _
  · refine scans_ite (s.scans_marker _) (scans_ite (s.scans_levelMark _ _ _) ?_)
    refine scans_ite (s.scans_levelMark _ _ _) (scans_ite s.scans_colon ?_)
    exact scans_ite (s.scans_block _) (scans_ite s.scans_plain scans_malformed)

/-- **Reading a token** fails as tokens do. -/
theorem scans_step (s : Layout) : Scans s.step := by
  refine (scans_dropStale _).bind fun t => ?_
  dsimp only
  split
  · exact (scans_endLevels _).return
  · exact scans_readToken _ _ _

/-- **What the tokens end with**, by induction on the steps. -/
theorem fault_of_run (steps : Nat) (s : Layout) : (run steps s).fault.OfTokens := by
  induction steps generalizing s with
  | zero => exact .malformed
  | succ steps ih =>
      rw [run]
      split
      · rename_i fault hfault
        exact s.scans_step fault hfault
      · split
        · exact .malformed
        · exact ih _

end Layout

/-- **What the tokens of a text end with** is a fault of tokens. -/
theorem fault_of_ofText (text : List Char) : (Tokens.ofText text).fault.OfTokens :=
  Layout.fault_of_run _ _

end Stencil.Yaml
