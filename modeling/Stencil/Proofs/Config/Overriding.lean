import Stencil.Config.Environment
import Stencil.Proofs.Config.Conversion
import Stencil.Proofs.Text.Blank

/-! # Overriding a configuration

What a configuration becomes under an environment, field by field, if a validator converts the texts of
the environment into numbers.

* `Config.Field.SetTo`, `Field.Takes`, `Field.Fails`: the text that an environment sets a field to, the
  number that the field takes from it, and what is wrong with it if it takes none.
* `Config.overrideWith_eq_ok_iff`: a configuration is overridden iff no field fails; then the fields that
  are set take their numbers, and all else stays as it is.
* `Config.overrideWith_eq_error_iff`: otherwise the fields that fail are reported, each once.
* `Config.overrideWith_outcome`: both together; and overriding by the same environment again changes
  nothing. -/

namespace Stencil.Config

/-! ## What an environment says of a field -/

namespace Field

/-- The variable that overrides a field. -/
def variableName : Field → String
  | .depth => "SPRIG_MAX_DEPTH"
  | .output => "SPRIG_MAX_OUTPUT"
  | .cache => "SPRIG_CACHE_SIZE"

variable (f : Field) (environment : Environment)

/-- Whether an environment **sets** a field to a text: its variable is present and not blank, and the
text is the value of the variable without the blanks around it. -/
def SetTo (text : String) : Prop :=
  ∃ value, environment.lookup f.variableName = some value ∧ ¬Text.AllBlank value.toList ∧
    text = Text.trimmed value

/-- Whether an environment sets a field. -/
def IsSet : Prop := ∃ text, f.SetTo environment text

variable (P : Conversion)

/-- Whether a field **takes** a number from an environment: the text that it is set to is converted into
the number, and this is not below the bound of the field. -/
def Takes (n : Int) : Prop := ∃ text, f.SetTo environment text ∧ P text = .ok n ∧ f.bound ≤ n

/-- Why a field that is set **fails** to take a number. -/
inductive Fails : Problem → Prop
  /-- The text is not converted. -/
  | unreadable {text : String} {p : Problem} (hset : f.SetTo environment text)
      (h : P text = .error p) : Fails p
  /-- The number is below the bound. -/
  | tooSmall {text : String} {n : Int} (hset : f.SetTo environment text) (h : P text = .ok n)
      (hlt : n < f.bound) : Fails (.tooSmall f.bound)

/-- What a field is given as under an environment: the text that it is set to, or what it was. -/
def given (base : Config) : Given :=
  match override? environment f.variableName with
  | none => .ofOption (f.get base)
  | some text => .text text

/-- What a field comes to under an environment. -/
def outcome (base : Config) : Except Problem (Option Int) := f.comesTo P (f.given environment base)

end Field

/-- What the first pair of a row with a key holds. -/
theorem find?_map_eq_lookup {α : Type} (key : String) (pairs : List (String × α)) :
    (pairs.find? fun o => o.1 == key).map (·.2) = pairs.lookup key := by
  induction pairs with
  | nil => rfl
  | cons o os ih =>
      rw [List.find?_cons, List.lookup_cons, Bool.beq_comm]
      cases key == o.1 with
      | true => rfl
      | false => exact ih

namespace Field

variable {P : Conversion} {f : Field} {environment : Environment} {base : Config} {text : String}
  {n : Int}

/-- The overriding text of a variable is the one that its field is set to. -/
theorem override?_eq_some_iff :
    override? environment f.variableName = some text ↔ f.SetTo environment text := by
  have hblank : ∀ value : String,
      (Text.trimmed value).isEmpty = true ↔ Text.AllBlank value.toList := by
    intro value
    rw [String.isEmpty_iff, ← String.toList_inj, Text.toList_trimmed]
    exact Text.trim_eq_nil_iff
  unfold override? SetTo
  rw [← find?_map_eq_lookup]
  cases environment.find? fun v => v.1 == f.variableName with
  | none => simp
  | some v =>
      simp only [Option.map_some, Option.some.injEq, exists_eq_left', ← hblank]
      split
      · rename_i hempty
        simp [hempty]
      · rename_i hempty
        simp [hempty, @eq_comm _ text]

/-- A variable does not override a field that is not set. -/
theorem override?_eq_none_iff :
    override? environment f.variableName = none ↔ ¬f.IsSet environment := by
  simp [Option.eq_none_iff_forall_ne_some, IsSet, override?_eq_some_iff]

/-- A field that fails is set. -/
theorem Fails.isSet {p : Problem} (h : f.Fails environment P p) : f.IsSet environment := by
  cases h with
  | unreadable hset => exact ⟨_, hset⟩
  | tooSmall hset => exact ⟨_, hset⟩

/-- A field that is not set keeps its number. -/
theorem outcome_of_not_isSet (hbase : base.Valid) (h : ¬f.IsSet environment) :
    f.outcome environment P base = .ok (f.get base) := by
  rw [outcome, given, override?_eq_none_iff.mpr h]
  exact comesTo_ofOption hbase P f

/-- What a field that is set comes to. -/
theorem outcome_of_setTo (h : f.SetTo environment text) :
    f.outcome environment P base = P text >>= f.bounded := by
  rw [outcome, given, override?_eq_some_iff.mpr h]
  rfl

/-- A field that takes a number comes to it. -/
theorem outcome_of_takes (h : f.Takes environment P n) :
    f.outcome environment P base = .ok (some n) := by
  obtain ⟨text, hset, hn, hle⟩ := h
  rw [outcome_of_setTo hset, hn]
  exact bounded_eq_ok_iff.mpr ⟨hle, rfl⟩

/-- A field that comes to something took a number, or was not set. -/
theorem takes_or_of_outcome (hbase : base.Valid) {v : Option Int}
    (h : f.outcome environment P base = .ok v) :
    (∃ n, f.Takes environment P n ∧ v = some n) ∨ ¬f.IsSet environment ∧ v = f.get base := by
  by_cases hset : f.IsSet environment
  · obtain ⟨text, htext⟩ := hset
    rw [outcome_of_setTo htext] at h
    obtain ⟨n, hn, h⟩ := bind_eq_ok_iff.mp h
    obtain ⟨hle, rfl⟩ := bounded_eq_ok_iff.mp h
    exact Or.inl ⟨n, ⟨text, htext, hn, hle⟩, rfl⟩
  · rw [outcome_of_not_isSet hbase hset] at h
    cases h
    exact Or.inr ⟨hset, rfl⟩

/-- A field comes to nothing iff it fails. -/
theorem outcome_eq_error_iff (hbase : base.Valid) {p : Problem} :
    f.outcome environment P base = .error p ↔ f.Fails environment P p := by
  constructor
  · intro h
    by_cases hset : f.IsSet environment
    · obtain ⟨text, htext⟩ := hset
      rw [outcome_of_setTo htext] at h
      rcases bind_eq_error_iff.mp h with h | ⟨n, hn, h⟩
      · exact .unreadable htext h
      · obtain ⟨hlt, rfl⟩ := bounded_eq_error_iff.mp h
        exact .tooSmall htext hn hlt
    · rw [outcome_of_not_isSet hbase hset] at h
      cases h
  · intro h
    cases h with
    | unreadable hset h => rw [outcome_of_setTo hset, h, error_bind]
    | tooSmall hset h hlt =>
        rw [outcome_of_setTo hset, h]
        exact bounded_eq_error_iff.mpr ⟨hlt, rfl⟩

/-- A field that fails takes no number. -/
theorem Fails.not_takes {p : Problem} (h : f.Fails environment P p) (n : Int) :
    ¬f.Takes environment P n := by
  intro htakes
  have herror := (outcome_eq_error_iff valid_default).mpr h
  rw [outcome_of_takes htakes] at herror
  cases herror

end Field

/-! ## Settings that are replaced -/

/-- The overriding texts, field by field. -/
theorem overrides_eq (environment : Environment) : overrides environment =
    Field.all.filterMap fun f =>
      (override? environment f.variableName).map fun text => (f.name, text) := rfl

/-- Among the overriding texts of some fields, that under the name of a field is its own. -/
theorem lookup_filterMap_eq_some_iff {g : Field → Option String} {f : Field} {text : String}
    {fields : List Field} :
    (fields.filterMap fun f => (g f).map fun text => (f.name, text)).lookup f.name = some text ↔
      f ∈ fields ∧ g f = some text := by
  induction fields with
  | nil => simp
  | cons h hs ih =>
      rw [List.filterMap_cons, List.mem_cons]
      cases hg : g h with
      | none =>
          rw [Option.map_none, ih]
          refine and_congr_left fun hf => (or_iff_right ?_).symm
          rintro rfl
          rw [hg] at hf
          cases hf
      | some other =>
          rw [Option.map_some, List.lookup_cons]
          by_cases hfh : f = h
          · subst hfh
            simp [hg]
          · have hname : (f.name == h.name) = false :=
              beq_eq_false_iff_ne.mpr (Field.name_injective.ne hfh)
            rw [hname, or_iff_right hfh]
            exact ih

/-- The overriding text under the name of a field is that of its variable. -/
theorem lookup_overrides (environment : Environment) (f : Field) :
    (overrides environment).lookup f.name = override? environment f.variableName := by
  ext text
  rw [overrides_eq, lookup_filterMap_eq_some_iff, and_iff_right f.mem_all]

/-- The encoding is not among them. -/
theorem lookup_encodingName_overrides (environment : Environment) :
    (overrides environment).lookup encodingName = none := by
  rw [List.lookup_eq_none_iff, overrides_eq]
  intro o ho
  obtain ⟨f, -, ho⟩ := List.mem_filterMap.mp ho
  obtain ⟨text, -, rfl⟩ := Option.map_eq_some_iff.mp ho
  exact bne_iff_ne.mpr f.name_ne_encodingName.symm

/-- Replacing one setting: it becomes the text under its name, if there is one. -/
theorem replace_singleton (name : String) (s : Setting) (others : List (String × String)) :
    replace [(.text name, s)] others =
      [(.text name, ((others.lookup name).map Setting.text).getD s)] := by
  have hfind : (fun o : String × String => SettingName.text name == .text o.1) =
      fun o => o.1 == name := by
    funext o
    rw [Bool.eq_iff_iff, beq_iff_eq, beq_iff_eq, SettingName.text.injEq, eq_comm]
  rw [replace, List.map_singleton, hfind, ← find?_map_eq_lookup]
  cases others.find? fun o => o.1 == name <;> rfl

/-- Settings are replaced one by one. -/
theorem replace_append (l m : List (SettingName × Setting)) (others : List (String × String)) :
    replace (l ++ m) others = replace l others ++ replace m others := List.map_append

/-- A configuration gives complete settings. -/
theorem settings_eq (c : Config) :
    c.settings = complete (fun f => .ofOption (f.get c)) c.encoding := by
  obtain ⟨d, o, n, e⟩ := c
  cases d <;> cases o <;> rfl

/-- **Replacing settings** of a configuration by those of an environment gives complete settings again:
every field as it is given then, and the encoding as it was. -/
theorem replace_settings (base : Config) (environment : Environment) :
    replace base.settings (overrides environment) =
      complete (fun f => f.given environment base) base.encoding := by
  have hfield (f : Field) : replace [(.text f.name, (Given.ofOption (f.get base)).setting)]
      (overrides environment) = [(.text f.name, (f.given environment base).setting)] := by
    rw [replace_singleton, lookup_overrides, Field.given]
    cases override? environment f.variableName <;> rfl
  have hencoding : replace [(.text encodingName, .text base.encoding)] (overrides environment) =
      [(.text encodingName, .text base.encoding)] := by
    rw [replace_singleton, lookup_encodingName_overrides]
    rfl
  rw [settings_eq, complete, complete, replace_append, hencoding]
  refine congrArg (· ++ _) ?_
  induction Field.all with
  | nil => rfl
  | cons f fs ih =>
      rw [List.map_cons, List.map_cons, ← List.singleton_append, replace_append, hfield, ih]
      rfl

/-! ## Overriding -/

section

variable {P : Conversion} {validate : Validator} {base : Config} {environment : Environment}

/-- Nothing is overridden iff no field is set. -/
theorem overrides_eq_nil_iff : overrides environment = [] ↔ ∀ f : Field, ¬f.IsSet environment := by
  simp [overrides_eq, List.filterMap_eq_nil_iff, Field.mem_all, Field.override?_eq_none_iff]

/-- A configuration that nothing overrides is the result. -/
theorem overrideWith_of_not_isSet (validate : Validator) (base : Config)
    (h : ∀ f : Field, ¬f.IsSet environment) :
    overrideWith validate base environment = .ok ⟨base, true⟩ := by
  rw [overrideWith, overrides_eq_nil_iff.mpr h]

/-- One that something overrides is validated as a whole. -/
theorem overrideWith_of_isSet (validate : Validator) (base : Config)
    (h : ∃ f : Field, f.IsSet environment) :
    overrideWith validate base environment =
      ((fun config => ⟨config, false⟩) <$>
        validate (complete (fun f => f.given environment base) base.encoding)).mapError
          (.invalid "environment") := by
  unfold overrideWith
  split
  · rename_i hnil
    obtain ⟨f, hf⟩ := h
    exact absurd hf (overrides_eq_nil_iff.mp hnil f)
  · rw [replace_settings]
    cases validate (complete (fun f => f.given environment base) base.encoding) <;> rfl

/-- What all fields come to, if none fails, makes a configuration. -/
theorem exists_outcome_eq (hbase : base.Valid)
    (h : ∀ (f : Field) (p : Problem), ¬f.Fails environment P p) :
    ∃ c : Config, (∀ f : Field, f.outcome environment P base = .ok (f.get c)) ∧
      c.encoding = base.encoding := by
  have hok (f : Field) : ∃ v, f.outcome environment P base = .ok v := by
    cases hf : f.outcome environment P base with
    | ok v => exact ⟨v, rfl⟩
    | error p => exact absurd ((Field.outcome_eq_error_iff hbase).mp hf) (h f p)
  obtain ⟨v, hcache⟩ := hok .cache
  rcases Field.takes_or_of_outcome hbase hcache with ⟨n, -, rfl⟩ | ⟨-, rfl⟩
  · exact exists_get_eq base.encoding hok hcache
  · exact exists_get_eq base.encoding hok hcache

/-- If no field fails, the configuration is what the fields come to. -/
theorem overrideWith_of_outcome (hvalidate : validate.Converts P) {c : Config}
    (hset : ∃ f : Field, f.IsSet environment)
    (h : ∀ f : Field, f.outcome environment P base = .ok (f.get c))
    (hencoding : c.encoding = base.encoding) :
    overrideWith validate base environment = .ok ⟨c, false⟩ := by
  rw [overrideWith_of_isSet validate base hset, ← hencoding, hvalidate.accepts _ c h]
  rfl

/-- If one fails, all that fail are reported. -/
theorem overrideWith_of_fails (hvalidate : validate.Converts P) (hbase : base.Valid) {f : Field}
    {p : Problem} (h : f.Fails environment P p) :
    overrideWith validate base environment =
      .error (.invalid "environment"
        ((failures fun f => f.outcome environment P base).map Field.finding)) := by
  have hfails : ∃ (f : Field) (p : Problem), f.outcome environment P base = .error p :=
    ⟨f, p, (Field.outcome_eq_error_iff hbase).mpr h⟩
  rw [overrideWith_of_isSet validate base ⟨f, h.isSet⟩, hvalidate.refuses _ _ hfails]
  rfl

/-- **When a configuration is overridden**: no field fails. The result has what the fields come to, and
the encoding of the base; it is the base itself iff no field is set. -/
theorem overrideWith_eq_ok_iff (hvalidate : validate.Converts P) (hbase : base.Valid) {r : Overridden} :
    overrideWith validate base environment = .ok r ↔
      (∀ f : Field, f.outcome environment P base = .ok (f.get r.config)) ∧
        r.config.encoding = base.encoding ∧
        (r.isBase = true ↔ ∀ f : Field, ¬f.IsSet environment) := by
  obtain ⟨c, isBase⟩ := r
  by_cases hset : ∃ f : Field, f.IsSet environment
  · rw [iff_false_right (not_forall_not.mpr hset), Bool.not_eq_true]
    constructor
    · intro h
      have hnone (f : Field) (p : Problem) : ¬f.Fails environment P p := by
        intro hf
        rw [overrideWith_of_fails hvalidate hbase hf] at h
        cases h
      obtain ⟨d, hd, hencoding⟩ := exists_outcome_eq hbase hnone
      rw [overrideWith_of_outcome hvalidate hset hd hencoding] at h
      cases h
      exact ⟨hd, hencoding, rfl⟩
    · rintro ⟨hget, hencoding, rfl⟩
      exact overrideWith_of_outcome hvalidate hset hget hencoding
  · have hnone : ∀ f : Field, ¬f.IsSet environment := not_exists.mp hset
    rw [overrideWith_of_not_isSet validate base hnone, iff_true_right hnone]
    constructor
    · intro h
      cases h
      exact ⟨fun f => Field.outcome_of_not_isSet hbase (hnone f), rfl, rfl⟩
    · rintro ⟨hget, hencoding, rfl⟩
      have hc : base = c := by
        refine eq_of_get (fun f => ?_) hencoding.symm
        have hf := hget f
        rw [Field.outcome_of_not_isSet hbase (hnone f)] at hf
        exact Except.ok.inj hf
      rw [hc]

/-- **When it is not**: the fields that fail are reported. -/
theorem overrideWith_eq_error_iff (hvalidate : validate.Converts P) (hbase : base.Valid)
    {e : ConfigError} :
    overrideWith validate base environment = .error e ↔
      (∃ (f : Field) (p : Problem), f.Fails environment P p) ∧
        e = .invalid "environment"
          ((failures fun f => f.outcome environment P base).map Field.finding) := by
  constructor
  · intro h
    by_cases hfails : ∃ (f : Field) (p : Problem), f.Fails environment P p
    · obtain ⟨f, p, hf⟩ := hfails
      rw [overrideWith_of_fails hvalidate hbase hf] at h
      cases h
      exact ⟨⟨f, p, hf⟩, rfl⟩
    · -- then there is a configuration, with the numbers that were taken or with those of the base
      obtain ⟨c, hc, hencoding⟩ := exists_outcome_eq hbase fun f p hf => hfails ⟨f, p, hf⟩
      by_cases hset : ∃ f : Field, f.IsSet environment
      · rw [overrideWith_of_outcome hvalidate hset hc hencoding] at h
        cases h
      · rw [overrideWith_of_not_isSet validate base (not_exists.mp hset)] at h
        cases h
  · rintro ⟨⟨f, p, hf⟩, rfl⟩
    exact overrideWith_of_fails hvalidate hbase hf

/-- **Overriding by the same environment again changes nothing**, and what it gives is valid. -/
theorem valid_and_overrideWith_of_overrideWith (hvalidate : validate.Converts P) (hbase : base.Valid)
    {r : Overridden} (h : overrideWith validate base environment = .ok r) :
    r.config.Valid ∧ overrideWith validate r.config environment = .ok r := by
  obtain ⟨hget, -, hisBase⟩ := (overrideWith_eq_ok_iff hvalidate hbase).mp h
  have hvalid : r.config.Valid := by
    rw [valid_iff]
    intro f n hn
    exact Field.le_of_comesTo ((hget f).trans (congrArg _ hn))
  refine ⟨hvalid, (overrideWith_eq_ok_iff hvalidate hvalid).mpr ⟨fun f => ?_, rfl, hisBase⟩⟩
  rcases Field.takes_or_of_outcome hbase (hget f) with ⟨n, htakes, hn⟩ | ⟨hunset, -⟩
  · rw [hn]
    exact Field.outcome_of_takes htakes
  · exact Field.outcome_of_not_isSet hvalid hunset

end

/-- **What overriding a configuration comes to**, if the validator converts texts by a conversion. If no
field is set, the result is the base itself. If all fields that are set take numbers, it is the base with
these numbers. Otherwise the fields that fail are reported, each once and in their order. Whatever is
returned is valid, and overriding it by the same environment again returns the same. -/
theorem overrideWith_outcome {P : Conversion} {validate : Validator} (hvalidate : validate.Converts P)
    {base : Config} (hbase : base.Valid) (environment : Environment) :
    ((∀ f : Field, ¬f.IsSet environment) →
      overrideWith validate base environment = .ok ⟨base, true⟩) ∧
    ((∃ f : Field, f.IsSet environment) →
      (∀ f : Field, f.IsSet environment → ∃ n, f.Takes environment P n) →
      ∃ c, overrideWith validate base environment = .ok ⟨c, false⟩ ∧ c.encoding = base.encoding ∧
        (∀ (f : Field) (n : Int), f.Takes environment P n → f.get c = some n) ∧
        ∀ f : Field, ¬f.IsSet environment → f.get c = f.get base) ∧
    ((∃ f : Field, f.IsSet environment ∧ ∀ n, ¬f.Takes environment P n) →
      ∃ failing : List (Field × Problem),
        overrideWith validate base environment =
          .error (.invalid "environment" (failing.map Field.finding)) ∧
        (failing.map Prod.fst).Sublist Field.all ∧
        ∀ f p, (f, p) ∈ failing ↔ f.Fails environment P p) ∧
    ∀ r, overrideWith validate base environment = .ok r →
      r.config.Valid ∧ overrideWith validate r.config environment = .ok r := by
  refine ⟨overrideWith_of_not_isSet validate base, ?_, ?_,
    fun r => valid_and_overrideWith_of_overrideWith hvalidate hbase⟩
  · intro hset htakes
    have hnone (f : Field) (p : Problem) : ¬f.Fails environment P p := by
      intro hf
      obtain ⟨n, hn⟩ := htakes f hf.isSet
      exact hf.not_takes n hn
    obtain ⟨c, hc, hencoding⟩ := exists_outcome_eq hbase hnone
    refine ⟨c, overrideWith_of_outcome hvalidate hset hc hencoding, hencoding,
      fun f n hn => ?_, fun f hf => ?_⟩
    · exact Except.ok.inj ((hc f).symm.trans (Field.outcome_of_takes hn))
    · exact Except.ok.inj ((hc f).symm.trans (Field.outcome_of_not_isSet hbase hf))
  · rintro ⟨f, hset, hnot⟩
    have hfails : ∃ p, f.Fails environment P p := by
      cases hf : f.outcome environment P base with
      | error p => exact ⟨p, (Field.outcome_eq_error_iff hbase).mp hf⟩
      | ok v =>
          rcases Field.takes_or_of_outcome hbase hf with ⟨n, hn, -⟩ | ⟨hunset, -⟩
          · exact absurd hn (hnot n)
          · exact absurd hset hunset
    obtain ⟨p, hf⟩ := hfails
    refine ⟨_, overrideWith_of_fails hvalidate hbase hf, map_fst_failures_sublist, fun f p => ?_⟩
    exact mem_failures.trans (Field.outcome_eq_error_iff hbase)

/-- A configuration with a limit and an encoding of its own. -/
def limited : Config := { maxOutput := some 5, encoding := "latin-1" }

/-- An environment with a depth between blanks and an output that is blank. -/
def deeper : Environment := [("SPRIG_MAX_DEPTH", " 9 "), ("SPRIG_MAX_OUTPUT", " ")]

/-- The same with a size of the cache that is no number. -/
def muddled : Environment := ("SPRIG_CACHE_SIZE", "lots") :: deeper

/-- The depth is overridden and the output is not; with the size of the cache nothing is. -/
theorem overrideWith_outcome_muddled :
    limited.Valid ∧ Validator.Converts integerOf validateEntries ∧
    overrideWith validateEntries limited deeper = .ok ⟨{ limited with maxDepth := some 9 }, false⟩ ∧
    ∃ failing : List (Field × Problem),
      overrideWith validateEntries limited muddled =
        .error (.invalid "environment" (failing.map Field.finding)) ∧
      (failing.map Prod.fst).Sublist Field.all ∧ (.cache, .integerText) ∈ failing := by
  have hvalid : limited.Valid := by simp [Config.Valid, limited, leastOutput, leastCache]
  have hdepth : Field.depth.SetTo deeper "9" := ⟨" 9 ", by decide, by decide, by decide⟩
  have htakes : Field.depth.Takes deeper integerOf 9 := ⟨"9", hdepth, by decide, by decide⟩
  have houtput : ¬Field.output.IsSet deeper := by
    rintro ⟨text, value, hvalue, hblank, -⟩
    cases hvalue
    exact hblank (by decide)
  have hcache : ¬Field.cache.IsSet deeper := by
    rintro ⟨text, value, hvalue, -, -⟩
    cases hvalue
  have hlots : Field.cache.SetTo muddled "lots" := ⟨"lots", by decide, by decide, by decide⟩
  have hunreadable : integerOf "lots" = .error .integerText := by decide
  have hfails : Field.cache.Fails muddled integerOf .integerText := .unreadable hlots hunreadable
  refine ⟨hvalid, converts_validateEntries, ?_, ?_⟩
  · obtain ⟨c, hc, hencoding, hnumbers, hkept⟩ :=
      (overrideWith_outcome converts_validateEntries hvalid deeper).2.1 ⟨.depth, "9", hdepth⟩
        fun f hf => by
          cases f with
          | depth => exact ⟨9, htakes⟩
          | output => exact absurd hf houtput
          | cache => exact absurd hf hcache
    have heq : c = { limited with maxDepth := some 9 } := by
      refine eq_of_get (fun f => ?_) hencoding
      cases f with
      | depth => exact hnumbers .depth 9 htakes
      | output => exact hkept .output houtput
      | cache => exact hkept .cache hcache
    rw [hc, heq]
  · obtain ⟨failing, herror, horder, hfailing⟩ :=
      (overrideWith_outcome converts_validateEntries hvalid muddled).2.2.1
        ⟨.cache, ⟨"lots", hlots⟩, hfails.not_takes⟩
    exact ⟨failing, herror, horder, (hfailing _ _).mpr hfails⟩

end Stencil.Config
