import Stencil.Config.Document
import Stencil.Proofs.Config.Checking
import Stencil.Proofs.Result
import Stencil.Proofs.Yaml.Building
import Stencil.Proofs.Yaml.Reading
import Stencil.Proofs.Yaml.Scanning

/-! # What loading a configuration comes to

* `Config.loadWith_outcome`: with any reader, and any validator that keeps to the bounds, loading what is
  found under a path gives a valid configuration or a configuration error, unless the reader fails with an
  error of another kind; that error escapes, and no other does.
* `Config.load_undocumented`: with the reader that is run there are files with which one does.
* `Yaml.refusal_of_read`: with this reader such an error is that of a value that cannot be built, which is a
  scalar, the number of a character, or a version. -/

namespace Stencil

/-! ## Values that cannot be built -/

namespace Yaml

/-- Why a **value** of a text **cannot be built**. -/
inductive Refusal (text : List Char) (e : ConstructionError) : Prop where
  /-- Reading its tokens, an escape gives the number of no character. -/
  | code (n : Nat) (hfault : (Tokens.ofText text).fault = .construction e)
      (h : Quoted.ofCode n = .error (.construction e))
  /-- Reading its tokens, a part of a version has too many digits. -/
  | version (digits : List Nat) (l : Limit) (hfault : (Tokens.ofText text).fault = .construction e)
      (h : Decimal.read false digits = .error l) (he : e = .value l.message)
  /-- A scalar of its document is refused under the tag of a truth value, a number or a point in time. -/
  | scalar (root : Node) (c : Content) (tag : Tag)
      (hroot : Node.ofTokens? (Tokens.ofText text) = .ok (some root)) (hc : c ∈ root.contents)
      (htag : tag ∈ Tag.refusing) (h : Built.atom tag c = .error (.construction e))

/-- A fault of tokens that is no malformed document is a refusal. -/
theorem Refusal.of_tokens {text : List Char} {e : ConstructionError}
    (h : (Tokens.ofText text).fault = .construction e) : Refusal text e := by
  have htokens := fault_of_ofText text
  rw [h] at htokens
  generalize hf : Fault.construction e = f at htokens
  cases htokens with
  | malformed => cases hf
  | code n f hcode =>
      subst hf
      exact .code n h hcode
  | version digits l hdigits =>
      cases hf
      exact .version digits l h hdigits rfl

/-- A fault in the data of a document that is not malformed is a refusal of a scalar. -/
theorem Refusal.of_root {text : List Char} {e : ConstructionError} {root : Node}
    (hroot : Node.ofTokens? (Tokens.ofText text) = .ok (some root))
    (h : (root.build 0).fault? = some (.construction e)) : Refusal text e := by
  obtain ⟨⟨level, f⟩, hmem, rfl⟩ := Built.mem_of_fault? h
  rcases Node.blames_build root 0 _ hmem with hfault | ⟨c, hc, tag, hatom⟩
  · cases hfault
  · exact .scalar root c tag hroot hc (Built.tag_of_atom hatom) hatom

/-- **A text whose data cannot be built holds a value that is refused.** -/
theorem Datum.refusal_of_ofText {text : List Char} {e : ConstructionError}
    (h : Datum.ofText text = .error (.construction e)) : Refusal text e := by
  unfold Datum.ofText at h
  split at h
  · cases h
  · rcases bind_eq_error_iff.mp h with h | ⟨root?, hroot, h⟩
    · -- the tokens end with the fault
      rcases Node.fault_of_ofTokens? h with hfault | hfault
      · cases hfault
      · exact Refusal.of_tokens hfault.symm
    · cases root? with
      | none => cases h
      | some root =>
          dsimp only at h
          split at h
          · rename_i f hf
            cases h
            exact Refusal.of_root hroot hf
          · cases h

/-- **Where the reader that is run fails otherwise**, the bytes are a text in which a value is refused. -/
theorem refusal_of_read {bytes : List UInt8} {e : ConstructionError}
    (h : read bytes = .error (.foreign e)) :
    ∃ text, Text.Utf8.decodeBlocks [] bytes = .ok text ∧ Refusal (Text.unifyLines text) e := by
  rcases bind_eq_error_iff.mp h with h | ⟨text, htext, h⟩
  · obtain ⟨bad, -, hbad⟩ := mapError_eq_error_iff.mp h
    cases hbad
  · obtain ⟨fault, hfault, hforeign⟩ := mapError_eq_error_iff.mp h
    cases fault with
    | malformed => cases hforeign
    | construction _ =>
        cases hforeign
        exact ⟨text, mapError_eq_ok_iff.mp htext, Datum.refusal_of_ofText hfault⟩

end Yaml

/-! ## Loading -/

namespace Config

open Yaml (ReadFault Reader)

/-- Whether a validator **keeps to the bounds**: the configurations that settings become are valid. -/
def Validator.KeepsBounds (validate : Validator) : Prop :=
  ∀ settings c, validate settings = .ok c → c.Valid

/-- The checks that are run keep to the bounds. -/
theorem keepsBounds_validateEntries : Validator.KeepsBounds validateEntries :=
  fun _ _ h => valid_of_validateEntries h

section

variable {ε : Type} {read : Reader ε} {validate : Validator} {path : String} {bytes : List UInt8}

/-- The configuration of a document is valid. -/
theorem valid_of_ofDatum (hvalidate : validate.KeepsBounds) {root : Yaml.Datum} {c : Config}
    (h : ofDatum validate path root = .ok c) : c.Valid := by
  obtain ⟨settings, -, h⟩ := bind_eq_ok_iff.mp h
  exact hvalidate settings c (mapError_eq_ok_iff.mp h)

/-- A file that is read gives the configuration of its document. -/
theorem loadWith_of_read {root : Yaml.Datum} (h : read bytes = .ok root) :
    loadWith read validate path (.file bytes) = (ofDatum validate path root).mapError .config := by
  rw [loadWith, h]

/-- **Loading a file fails otherwise** iff reading it does. -/
theorem loadWith_file_eq_construction_iff {e : ε} :
    loadWith read validate path (.file bytes) = .error (.construction e) ↔
      read bytes = .error (.foreign e) := by
  cases hread : read bytes with
  | ok root =>
      rw [loadWith_of_read hread, mapError_eq_error_iff]
      simp
  | error fault =>
      rw [loadWith, hread]
      cases fault <;> simp

/-- A file that is read, or whose reading fails for a reason of the document, gives a valid configuration or
a configuration error. -/
theorem loadWith_file_outcome (hvalidate : validate.KeepsBounds)
    (h : ∀ e, read bytes ≠ .error (.foreign e)) :
    (∃ c, loadWith read validate path (.file bytes) = .ok c ∧ c.Valid) ∨
      ∃ e, loadWith read validate path (.file bytes) = .error (.config e) := by
  cases hread : read bytes with
  | ok root =>
      rw [loadWith_of_read hread]
      cases hconfig : ofDatum validate path root with
      | ok c => exact Or.inl ⟨c, rfl, valid_of_ofDatum hvalidate hconfig⟩
      | error e => exact Or.inr ⟨e, rfl⟩
  | error fault =>
      rw [loadWith, hread]
      cases fault with
      | unreadable reason => exact Or.inr ⟨_, rfl⟩
      | malformed => exact Or.inr ⟨_, rfl⟩
      | foreign e => exact absurd hread (h e)

/-- **What loading a configuration comes to.** Whatever is found under a path, an error of another kind than
those of configurations comes out iff it is that of reading a file, and then it is this one. In all other
cases there is a valid configuration, or a configuration error. -/
theorem loadWith_outcome (hvalidate : validate.KeepsBounds) {entry : Entry}
    (hfound : entry ≠ .missing) :
    (∀ e, loadWith read validate path entry = .error (.construction e) ↔
      ∃ bytes, entry = .file bytes ∧ read bytes = .error (.foreign e)) ∧
    ((∀ bytes e, entry = .file bytes → read bytes ≠ .error (.foreign e)) →
      (∃ c, loadWith read validate path entry = .ok c ∧ c.Valid) ∨
        ∃ e, loadWith read validate path entry = .error (.config e)) := by
  cases entry with
  | missing => exact absurd rfl hfound
  | directory =>
      refine ⟨fun e => ⟨nofun, ?_⟩, fun _ => Or.inr ⟨_, rfl⟩⟩
      rintro ⟨bytes, hbytes, -⟩
      cases hbytes
  | file bytes =>
      refine ⟨fun e => loadWith_file_eq_construction_iff.trans ?_, fun h => ?_⟩
      · simp only [Entry.file.injEq, exists_eq_left']
      · exact loadWith_file_outcome hvalidate fun e => h bytes e rfl

end

/-- A file with a date in a thirteenth month: `a: 2024-13-45`. -/
def impossibleDate : List UInt8 :=
  [0x61, 0x3A, 0x20, 0x32, 0x30, 0x32, 0x34, 0x2D, 0x31, 0x33, 0x2D, 0x34, 0x35, 0x0A]

/-- Reading it fails with the error of the date. -/
theorem read_impossibleDate :
    Yaml.read impossibleDate = .error (.foreign (.value "month must be in 1..12")) := by
  have hfault : (fun _ => ()) <$> Yaml.read impossibleDate =
      .error (.foreign (.value "month must be in 1..12")) := by decide +kernel
  exact map_eq_error_iff.mp hfault

/-- A file with a comment alone: `# none`. -/
def remark : List UInt8 := [0x23, 0x20, 0x6E, 0x6F, 0x6E, 0x65, 0x0A]

/-- The error of the date comes out, and of a remark a configuration or a configuration error does. -/
theorem loadWith_outcome_impossibleDate :
    Validator.KeepsBounds validateEntries ∧ Entry.file impossibleDate ≠ .missing ∧
    loadWith Yaml.read validateEntries "sprig.yaml" (.file impossibleDate) =
      .error (.construction (.value "month must be in 1..12")) ∧
    Entry.file remark ≠ .missing ∧ (∀ e, Yaml.read remark ≠ .error (.foreign e)) ∧
    ((∃ c, loadWith Yaml.read validateEntries "sprig.yaml" (.file remark) = .ok c ∧ c.Valid) ∨
      ∃ e, loadWith Yaml.read validateEntries "sprig.yaml" (.file remark) = .error (.config e)) := by
  have hdate : Entry.file impossibleDate ≠ .missing := by decide
  have hremark : Entry.file remark ≠ .missing := by decide
  have hread : ∀ e, Yaml.read remark ≠ .error (.foreign e) := by
    intro e
    have hok : (Yaml.read remark).isOk = true := by decide +kernel
    intro h
    rw [h] at hok
    cases hok
  refine ⟨keepsBounds_validateEntries, hdate, ?_, hremark, hread, ?_⟩
  · exact ((loadWith_outcome keepsBounds_validateEntries hdate).1 _).mpr ⟨_, rfl, read_impossibleDate⟩
  · refine (loadWith_outcome keepsBounds_validateEntries hremark).2 fun bytes e hbytes => ?_
    cases hbytes
    exact hread e

/-- **A file that is found may give neither a valid configuration nor a configuration error.** -/
theorem load_undocumented :
    ¬((∃ c, load "sprig.yaml" (.file impossibleDate) = .ok c ∧ c.Valid) ∨
      ∃ e, load "sprig.yaml" (.file impossibleDate) = .error (.config e)) := by
  have hload : load "sprig.yaml" (.file impossibleDate) =
      .error (.construction (.value "month must be in 1..12")) :=
    loadWith_file_eq_construction_iff.mpr read_impossibleDate
  rw [hload]
  rintro (⟨c, hc, -⟩ | ⟨e, he⟩)
  · cases hc
  · cases he

end Config

end Stencil
