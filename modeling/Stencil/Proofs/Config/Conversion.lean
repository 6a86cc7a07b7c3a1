import Stencil.Proofs.Config.Checking

/-! # Validators that convert texts

What of a validator matters where a configuration is overridden: how it takes settings that are complete,
and in which a field is nothing, a number or a text.

* `Config.Field.comesTo`: what a field comes to that is given so, under a conversion of texts into
  numbers.
* `Config.Validator.Converts`: a validator accepts the settings if all fields come to something, and
  otherwise reports those that do not.
* `Config.converts_validateEntries`: the checks that are run are such a validator. -/

namespace Stencil.Config

/-- A **conversion** of texts into numbers, which may fail. -/
abbrev Conversion := String → Except Problem Int

/-- What the setting of a field is **given** as. -/
inductive Given where
  /-- Nothing. -/
  | nothing
  /-- A number. -/
  | number (n : Int)
  /-- A text, which stands for a number. -/
  | text (s : String)

namespace Given

/-- What is given, as a setting. -/
def setting : Given → Setting
  | nothing => .null
  | number n => .int n
  | text s => .text s

/-- What a field is given as that has a number, or has none. -/
def ofOption : Option Int → Given
  | none => .nothing
  | some n => .number n

end Given

/-- Settings that are **complete**: every field, and the encoding. -/
def complete (given : Field → Given) (encoding : String) : List (SettingName × Setting) :=
  Field.all.map (fun f => (.text f.name, (given f).setting)) ++ [(.text encodingName, .text encoding)]

namespace Field

/-- A number for a field, which may not be below its bound. -/
def bounded (f : Field) (n : Int) : Except Problem (Option Int) :=
  if f.bound ≤ n then .ok (some n) else .error (.tooSmall f.bound)

/-- **What a field comes to**, if texts are read by a conversion. Only the size of the cache may not be
missing. -/
def comesTo (P : Conversion) (f : Field) : Given → Except Problem (Option Int)
  | .nothing => if f = .cache then .error .notInteger else .ok none
  | .number n => f.bounded n
  | .text s => P s >>= f.bounded

/-- The finding of a field that comes to nothing. -/
def finding (failure : Field × Problem) : Finding := ⟨some (.text failure.1.name), failure.2⟩

/-- A field with the reason why it comes to nothing, if it does. -/
def failure? (outcome : Field → Except Problem (Option Int)) (f : Field) : Option (Field × Problem) :=
  match outcome f with
  | .ok _ => none
  | .error p => some (f, p)

end Field

/-- The fields that come to nothing, in order, with the reasons why they do. -/
def failures (outcome : Field → Except Problem (Option Int)) : List (Field × Problem) :=
  Field.all.filterMap (Field.failure? outcome)

/-- Whether a validator **converts** complete settings, reading texts by a conversion. -/
structure Validator.Converts (P : Conversion) (validate : Validator) : Prop where
  /-- It accepts them if every field comes to something, and leaves the encoding as it is. -/
  accepts : ∀ (given : Field → Given) (c : Config), (∀ f : Field, f.comesTo P (given f) = .ok (f.get c)) →
    validate (complete given c.encoding) = .ok c
  /-- Otherwise it reports every field that comes to nothing, with the reason, and nothing else. -/
  refuses : ∀ (given : Field → Given) (encoding : String),
    (∃ (f : Field) (p : Problem), f.comesTo P (given f) = .error p) →
    validate (complete given encoding) =
      .error ((failures fun f => f.comesTo P (given f)).map Field.finding)

/-! ## Fields that come to something, and fields that do not -/

namespace Field

variable {P : Conversion} {f : Field} {n : Int}

/-- A number within the bound is kept. -/
theorem bounded_eq_ok_iff {v : Option Int} : f.bounded n = .ok v ↔ f.bound ≤ n ∧ v = some n := by
  unfold bounded
  split
  · rename_i hle
    simp [hle, eq_comm]
  · rename_i hlt
    simp [hlt]

/-- A number below the bound is refused as such. -/
theorem bounded_eq_error_iff {p : Problem} :
    f.bounded n = .error p ↔ n < f.bound ∧ p = .tooSmall f.bound := by
  unfold bounded
  split
  · rename_i hle
    simp [Int.not_lt.mpr hle]
  · rename_i hlt
    simp [Int.not_le.mp hlt, eq_comm]

/-- A field of a valid configuration comes to what it is. -/
theorem comesTo_ofOption {c : Config} (hc : c.Valid) (P : Conversion) (f : Field) :
    f.comesTo P (.ofOption (f.get c)) = .ok (f.get c) := by
  cases hget : f.get c with
  | none =>
      refine if_neg ?_
      rintro rfl
      cases hget
  | some n => exact bounded_eq_ok_iff.mpr ⟨valid_iff.mp hc f n hget, rfl⟩

/-- A number that a field comes to is not below its bound. -/
theorem le_of_comesTo {g : Given} (h : f.comesTo P g = .ok (some n)) : f.bound ≤ n := by
  cases g with
  | nothing =>
      rw [comesTo] at h
      split at h <;> cases h
  | number m =>
      obtain ⟨hle, hm⟩ := bounded_eq_ok_iff.mp h
      cases hm
      exact hle
  | text s =>
      obtain ⟨m, -, h⟩ := bind_eq_ok_iff.mp h
      obtain ⟨hle, hm⟩ := bounded_eq_ok_iff.mp h
      cases hm
      exact hle

end Field

section

variable {outcome : Field → Except Problem (Option Int)}

/-- All fields that come to nothing are among the failures. -/
theorem mem_failures {f : Field} {p : Problem} : (f, p) ∈ failures outcome ↔ outcome f = .error p := by
  rw [failures, List.mem_filterMap]
  constructor
  · rintro ⟨g, -, hg⟩
    unfold Field.failure? at hg
    split at hg
    · cases hg
    · rename_i hp
      cases hg
      exact hp
  · intro h
    exact ⟨f, f.mem_all, by rw [Field.failure?, h]⟩

/-- They come in the order of the fields, none of them twice. -/
theorem map_fst_failures_sublist : ((failures outcome).map Prod.fst).Sublist Field.all := by
  rw [failures]
  induction Field.all with
  | nil => exact .slnil
  | cons f fs ih =>
      rw [List.filterMap_cons, Field.failure?]
      cases outcome f with
      | ok v => exact ih.cons f
      | error p => exact ih.cons_cons f

/-- If every field comes to something, the size of the cache to a number, they make a configuration. -/
theorem exists_get_eq {n : Int} (encoding : String) (h : ∀ f, ∃ v, outcome f = .ok v)
    (hcache : outcome .cache = .ok (some n)) :
    ∃ c : Config, (∀ f, outcome f = .ok (f.get c)) ∧ c.encoding = encoding := by
  obtain ⟨d, hdepth⟩ := h .depth
  obtain ⟨o, houtput⟩ := h .output
  refine ⟨⟨d, o, n, encoding⟩, fun f => ?_, rfl⟩
  cases f with
  | depth => exact hdepth
  | output => exact houtput
  | cache => exact hcache

end

/-! ## The checks that are run -/

/-- The conversion of the checks that are run. -/
def integerOf : Conversion := fun s => Setting.integerOfText s.toList

/-- A setting that is there is read as an integer, which may not be below the bound. -/
theorem Field.map_integerFrom (f : Field) (s : Setting) :
    some <$> s.integerFrom f.bound = s.integer >>= f.bounded := by
  rw [Setting.integerFrom]
  cases s.integer with
  | error p => rfl
  | ok n =>
      simp only [ok_bind, Field.bounded]
      split <;> rfl

/-- Reading what a field is given as gives what it comes to. -/
theorem Field.read_setting (f : Field) (g : Given) : f.read g.setting = f.comesTo integerOf g := by
  cases g with
  | nothing => cases f <;> rfl
  | number n => exact (read_of_ne_null (by simp [Given.setting]) f).trans (f.map_integerFrom (.int n))
  | text s => exact (read_of_ne_null (by simp [Given.setting]) f).trans (f.map_integerFrom (.text s))

section

variable (given : Field → Given) (encoding : String)

/-- Complete settings hold every field. -/
theorem given?_complete (f : Field) :
    given? f.name (complete given encoding) = some (given f).setting := by
  cases f <;> rfl

/-- They hold no other settings. -/
theorem strangers_complete : strangers (complete given encoding) = [] := rfl

/-- The encoding passes its check. -/
theorem check_encoding_complete :
    check encodingName ({} : Config).encoding Setting.textual (complete given encoding) =
      .ok encoding := rfl

/-- A field passes its check iff it comes to something. -/
theorem Field.check_complete (f : Field) : f.check (complete given encoding) =
    (f.comesTo integerOf (given f)).mapError fun p => ⟨some (.text f.name), p⟩ := by
  rw [check, Config.check, given?_complete, ← f.read_setting (given f)]

/-- What is wrong with complete settings: the fields that come to nothing. -/
theorem findings_complete : findings (complete given encoding) =
    (failures fun f => f.comesTo integerOf (given f)).map Field.finding := by
  rw [findings, check_encoding_complete, strangers_complete, failures]
  simp only [Field.check_complete, Config.finding, List.append_nil]
  induction Field.all with
  | nil => rfl
  | cons f fs ih =>
      rw [List.flatMap_cons, List.filterMap_cons, ih, Field.failure?]
      cases f.comesTo integerOf (given f) <;> rfl

end

/-- **The checks that are run convert complete settings.** -/
theorem converts_validateEntries : Validator.Converts integerOf validateEntries where
  accepts given c h := by
    refine validateEntries_eq_ok_iff.mpr ⟨fun f => ?_, rfl, rfl⟩
    rw [Field.check_complete, h f]
    rfl
  refuses given encoding := by
    rintro ⟨f, p, hp⟩
    refine validateEntries_eq_error_iff.mpr ⟨(findings_complete given encoding).symm, ?_⟩
    exact mt List.map_eq_nil_iff.mp (List.ne_nil_of_mem (mem_failures.mpr hp))

end Stencil.Config
