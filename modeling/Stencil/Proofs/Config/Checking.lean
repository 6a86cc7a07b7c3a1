import Stencil.Config.Validate
import Stencil.Proofs.Result

/-! # Checking settings

What it takes that settings become a configuration, and what is reported otherwise.

* `Config.Field`: the numbers of a configuration, which are checked alike.
* `Config.validateEntries_eq_ok_iff`: settings become a configuration iff the checks of all fields and
  of the encoding pass and there are no further settings.
* `Config.validateEntries_eq_error_iff`: otherwise all that is wrong is reported.
* `Config.valid_of_validateEntries`: settings that pass their checks are a valid configuration. -/

namespace Stencil

/-! ## Integers with a bound -/

namespace Setting

variable {bound n : Int} {s : Setting}

/-- An integer with a bound is an integer that is not below it. -/
theorem integerFrom_eq_ok_iff : s.integerFrom bound = .ok n ↔ s.integer = .ok n ∧ bound ≤ n := by
  rw [integerFrom, bind_eq_ok_iff]
  constructor
  · rintro ⟨m, hm, h⟩
    split at h
    · rename_i hle
      cases h
      exact ⟨hm, hle⟩
    · cases h
  · rintro ⟨hn, hle⟩
    exact ⟨n, hn, if_pos hle⟩

end Setting

namespace Config

/-! ## Fields -/

/-- A **field** of a configuration: a number with a bound. -/
inductive Field where
  /-- The greatest depth. -/
  | depth
  /-- The greatest output. -/
  | output
  /-- The size of the cache. -/
  | cache
  deriving DecidableEq, Repr

namespace Field

/-- The fields, in the order in which a configuration has them. -/
def all : List Field := [.depth, .output, .cache]

theorem mem_all (f : Field) : f ∈ all := by cases f <;> decide

/-- The name of the setting of a field. -/
def name : Field → String
  | .depth => depthName
  | .output => outputName
  | .cache => cacheName

/-- The least number of a field. -/
def bound : Field → Int
  | .depth => leastDepth
  | .output => leastOutput
  | .cache => leastCache

/-- The number that a configuration has in a field. -/
def get (c : Config) : Field → Option Int
  | .depth => c.maxDepth
  | .output => c.maxOutput
  | .cache => some c.cacheSize

/-- Read the setting of a field; only the size of the cache has to be a number. -/
def read : Field → Setting → Except Problem (Option Int)
  | .depth => Setting.optionalFrom leastDepth
  | .output => Setting.optionalFrom leastOutput
  | .cache => fun s => some <$> s.integerFrom leastCache

/-- Check the setting of a field. -/
def check (settings : List (SettingName × Setting)) (f : Field) : Except Finding (Option Int) :=
  Config.check f.name (f.get {}) f.read settings

/-- No two fields have one name. -/
theorem name_injective : Function.Injective name := by
  intro f g h
  cases f <;> cases g <;> first | rfl | exact absurd h (by decide)

/-- Nor does a field have the name of the encoding. -/
theorem name_ne_encodingName (f : Field) : f.name ≠ encodingName := by cases f <;> decide

/-- A setting that is there is read as an integer with a bound. -/
theorem read_of_ne_null {s : Setting} (h : s ≠ .null) (f : Field) :
    f.read s = some <$> s.integerFrom f.bound := by
  cases f <;> cases s <;> first | rfl | exact absurd rfl h

/-- A number that is read for a field is not below its bound. -/
theorem le_of_read {f : Field} {s : Setting} {n : Int} (h : f.read s = .ok (some n)) :
    f.bound ≤ n := by
  by_cases hs : s = .null
  · subst hs
    cases f <;> cases h
  · rw [read_of_ne_null hs, map_eq_ok_iff] at h
    obtain ⟨m, hm, he⟩ := h
    cases he
    exact (Setting.integerFrom_eq_ok_iff.mp hm).2

end Field

/-- A configuration is its fields and its encoding. -/
theorem eq_of_get {c d : Config} (hget : ∀ f : Field, f.get c = f.get d)
    (hencoding : c.encoding = d.encoding) : c = d := by
  have hcache : some c.cacheSize = some d.cacheSize := hget .cache
  cases c
  cases d
  simp only [mk.injEq]
  exact ⟨hget .depth, hget .output, Option.some.inj hcache, hencoding⟩

/-- A configuration is valid iff no field is below its bound. -/
theorem valid_iff {c : Config} :
    c.Valid ↔ ∀ (f : Field) (n : Int), f.get c = some n → f.bound ≤ n := by
  constructor
  · rintro ⟨hdepth, houtput, hcache⟩ f n hn
    cases f with
    | depth => exact hdepth n hn
    | output => exact houtput n hn
    | cache =>
        cases hn
        exact hcache
  · intro h
    exact ⟨h .depth, h .output, h .cache _ rfl⟩

/-! ## Checks -/

/-- What passes a check is the default, or it was read. -/
theorem default_or_read_of_check {α : Type} {name : String} {default v : α}
    {read : Setting → Except Problem α} {settings : List (SettingName × Setting)}
    (h : check name default read settings = .ok v) : v = default ∨ ∃ s, read s = .ok v := by
  unfold check at h
  split at h
  · cases h
    exact Or.inl rfl
  · rename_i s _
    exact Or.inr ⟨s, mapError_eq_ok_iff.mp h⟩

/-- Checking a function of what is read is checking what is read. -/
theorem check_map {α β : Type} (name : String) (default : α) (read : Setting → Except Problem α)
    (g : α → β) (settings : List (SettingName × Setting)) :
    check name (g default) (fun s => g <$> read s) settings =
      g <$> check name default read settings := by
  unfold check
  cases given? name settings with
  | none => rfl
  | some s => cases h : read s <;> simp [h, Except.mapError]

/-- Nothing is reported iff a check passes. -/
theorem finding_eq_nil_iff {α : Type} {x : Except Finding α} : finding x = [] ↔ ∃ a, x = .ok a := by
  cases x <;> simp [finding]

/-- All that is wrong with settings: first the fields, then the encoding, then the settings that there
are not. -/
def findings (settings : List (SettingName × Setting)) : List Finding :=
  Field.all.flatMap (fun f => finding (f.check settings)) ++
    (finding (check encodingName ({} : Config).encoding Setting.textual settings) ++
      strangers settings)

variable {settings : List (SettingName × Setting)} {c : Config}

/-- The size of the cache is checked as a number that may not be missing. -/
theorem Field.check_cache : Field.cache.check settings =
    some <$> Config.check cacheName ({} : Config).cacheSize (Setting.integerFrom leastCache) settings :=
  check_map cacheName _ (Setting.integerFrom leastCache) some settings

/-- **When settings become a configuration**: the checks give its fields and its encoding, and there are
no further settings. -/
theorem validateEntries_eq_ok_iff : validateEntries settings = .ok c ↔
    (∀ f : Field, f.check settings = .ok (f.get c)) ∧
      check encodingName ({} : Config).encoding Setting.textual settings = .ok c.encoding ∧
      strangers settings = [] := by
  constructor
  · intro h
    unfold validateEntries at h
    dsimp only at h
    split at h
    · rename_i d o n e hdepth houtput hcache hencoding hothers
      cases h
      refine ⟨fun f => ?_, hencoding, hothers⟩
      cases f with
      | depth => exact hdepth
      | output => exact houtput
      | cache =>
          rw [Field.check_cache, hcache]
          rfl
    · cases h
  · rintro ⟨hfields, hencoding, hothers⟩
    have hdepth : check depthName none (Setting.optionalFrom leastDepth) settings = .ok c.maxDepth :=
      hfields .depth
    have houtput : check outputName none (Setting.optionalFrom leastOutput) settings =
        .ok c.maxOutput := hfields .output
    have hcache := hfields .cache
    rw [Field.check_cache, map_eq_ok_iff] at hcache
    obtain ⟨n, hcache, hn⟩ := hcache
    cases hn
    simp only [validateEntries, hdepth, houtput, hcache, hencoding, hothers]

/-- **What is reported of settings** that do not become a configuration: all that is wrong. -/
theorem eq_findings_of_validateEntries {l : List Finding} (h : validateEntries settings = .error l) :
    l = findings settings := by
  have hcache : ∀ x : Except Finding Int, finding (some <$> x) = finding x := by
    intro x
    cases x <;> rfl
  unfold validateEntries at h
  dsimp only at h
  split at h
  · cases h
  · cases h
    simp only [findings, Field.all, List.flatMap_cons, List.flatMap_nil, List.append_nil,
      List.append_assoc, Field.check_cache, hcache]
    rfl

/-- Settings with which nothing is wrong become a configuration. -/
theorem exists_of_findings (h : findings settings = []) : ∃ c, validateEntries settings = .ok c := by
  simp only [findings, List.append_eq_nil_iff, List.flatMap_eq_nil_iff, finding_eq_nil_iff] at h
  obtain ⟨hfields, ⟨e, hencoding⟩, hothers⟩ := h
  obtain ⟨d, hdepth⟩ := hfields .depth (Field.mem_all _)
  obtain ⟨o, houtput⟩ := hfields .output (Field.mem_all _)
  obtain ⟨v, hcache⟩ := hfields .cache (Field.mem_all _)
  have hn := hcache
  rw [Field.check_cache, map_eq_ok_iff] at hn
  obtain ⟨n, -, rfl⟩ := hn
  refine ⟨⟨d, o, n, e⟩, validateEntries_eq_ok_iff.mpr ⟨fun f => ?_, hencoding, hothers⟩⟩
  cases f with
  | depth => exact hdepth
  | output => exact houtput
  | cache => exact hcache

/-- **When settings do not become a configuration**: all that is wrong with them is reported, and that is
something. -/
theorem validateEntries_eq_error_iff {l : List Finding} :
    validateEntries settings = .error l ↔ l = findings settings ∧ l ≠ [] := by
  constructor
  · intro h
    have hl := eq_findings_of_validateEntries h
    refine ⟨hl, fun hnil => ?_⟩
    obtain ⟨c, hc⟩ := exists_of_findings (hl.symm.trans hnil)
    rw [hc] at h
    cases h
  · rintro ⟨rfl, hne⟩
    cases h : validateEntries settings with
    | error l => rw [eq_findings_of_validateEntries h]
    | ok c =>
        obtain ⟨hfields, hencoding, hothers⟩ := validateEntries_eq_ok_iff.mp h
        refine absurd ?_ hne
        simp [findings, hfields, hencoding, hothers, finding]

/-- **Settings that pass their checks are a valid configuration.** -/
theorem valid_of_validateEntries (h : validateEntries settings = .ok c) : c.Valid := by
  rw [valid_iff]
  intro f n hn
  have hcheck := (validateEntries_eq_ok_iff.mp h).1 f
  rcases default_or_read_of_check hcheck with hdefault | ⟨s, hs⟩
  · rw [hdefault] at hn
    exact valid_iff.mp valid_default f n hn
  · rw [hn] at hs
    exact Field.le_of_read hs

end Config

end Stencil
