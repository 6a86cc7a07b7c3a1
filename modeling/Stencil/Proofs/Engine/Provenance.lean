import Stencil.Proofs.Engine.Recency
import Stencil.Proofs.Result
import Stencil.Proofs.Template.Literal

/-! # Where the templates of an engine come from

An engine finds a source by its key alone, and two sources can have the same key.

* `Engine.Answers` says that an engine does with a source what compiling a certain source does.
* `Sourced` says that every template in a cache was compiled from a source that was used, and is kept
  under the key of that source; `Sourced.after` is the step, and `sourced_run` is the run.
* `Engine.run_answers` is the result: an engine answers as compiling the source does, or a source of the
  same key that was used before.
* `Engine.run_shared_key` gives two sources of the same key, the second of which is answered with the
  template of the first. -/

namespace Stencil

namespace Engine

variable {decode : Text.Decoder} {config : Config} {e : Engine} {call : Call} {source : String}
  {us : List String}

/-! ## Answers -/

/-- Compile a source and render it, **without an engine**. -/
def renderDirectly (config : Config) (source : String) (data : Value) : Except EngineError String := do
  let t ← (Template.compile source config).mapError .compile
  ((t.render data).run .start).1.mapError .render

/-- Whether an engine **answers a source as compiling** a certain source does: with the template or the
error, and with the text when data are rendered. -/
structure Answers (config : Config) (e : Engine) (source compiled : String) : Prop where
  /-- The template, with its source, tree and output limit, or the error. -/
  template : (e.compile source).result.map Compiled.template =
    (Template.compile compiled config).mapError .compile
  /-- The text, or the error. -/
  rendering : ∀ data, (e.render source data).result = renderDirectly config compiled data

/-- The template alone decides how a source is answered. -/
theorem answers_of_template {compiled : String}
    (h : (e.compile source).result.map Compiled.template =
      (Template.compile compiled config).mapError .compile) :
    Answers config e source compiled := by
  refine ⟨h, fun data => ?_⟩
  rw [renderDirectly, ← h, render]
  cases (e.compile source).result with
  | error err => rfl
  | ok c => rfl

/-! ## What a cache holds, whatever the keys -/

/-- Whether the templates in a cache were **compiled from sources that were used**. -/
structure Sourced (config : Config) (us : List String) (e : Engine) : Prop where
  /-- The engine has the configuration. -/
  configured : e.config = config
  /-- Every template was compiled from one of the sources, and is kept under its key. -/
  stored : ∀ entry ∈ e.cache, ∃ s ∈ us, Stores config s entry

/-- What is kept after a source was compiled was kept before, or is a template of the source. -/
theorem mem_cache_compile {entry : String × Compiled} (h : entry ∈ (e.compile source).engine.cache) :
    entry ∈ e.cache ∨ Stores e.config source entry := by
  by_cases hzero : e.config.cacheSize = 0
  · rw [compile_of_eq_zero hzero, compileAnew] at h
    cases ht : Template.compile source e.config with
    | error err => rw [ht] at h; exact Or.inl h
    | ok t => rw [ht] at h; exact Or.inl h
  · cases hfind : e.cache.find? fun entry => entry.1 == key source with
    | some found =>
        rw [(compile_of_find_some hzero hfind).2] at h
        rcases mem_of_mem_use h with hold | rfl
        · exact Or.inl hold
        · -- what is found is kept under the key of the source, and so stays as it is
          have hkey : found.1 = key source := by simpa using List.find?_some hfind
          rw [← hkey]
          exact Or.inl (List.mem_of_find?_eq_some hfind)
    | none =>
        cases ht : Template.compile source e.config with
        | error err =>
            rw [(compile_of_error hfind ht).2] at h
            exact Or.inl h
        | ok t =>
            rw [(compile_of_find_none hzero hfind ht).2] at h
            rcases mem_of_mem_use (List.mem_of_mem_drop h) with hold | rfl
            · exact Or.inl hold
            · exact Or.inr ⟨rfl, ht⟩

/-- **A source is answered** as itself, or as a source of the same key that was used. -/
theorem Sourced.answers (h : Sourced config us e) (source : String) :
    ∃ s, (s = source ∨ s ∈ us ∧ key s = key source) ∧ Answers config e source s := by
  have hconfig := h.configured
  subst hconfig
  by_cases hzero : e.config.cacheSize = 0
  · refine ⟨source, Or.inl rfl, answers_of_template ?_⟩
    rw [compile_of_eq_zero hzero, compileAnew]
    cases Template.compile source e.config with
    | error err => rfl
    | ok t => rfl
  · cases hfind : e.cache.find? fun entry => entry.1 == key source with
    | some found =>
        obtain ⟨s, hs, hstores⟩ := h.stored found (List.mem_of_find?_eq_some hfind)
        have hkey : found.1 = key source := by simpa using List.find?_some hfind
        refine ⟨s, Or.inr ⟨hs, hstores.1.symm.trans hkey⟩, answers_of_template ?_⟩
        rw [(compile_of_find_some hzero hfind).1, hstores.2]
        rfl
    | none =>
        refine ⟨source, Or.inl rfl, answers_of_template ?_⟩
        cases ht : Template.compile source e.config with
        | error err =>
            rw [(compile_of_error hfind ht).1]
            rfl
        | ok t =>
            rw [(compile_of_find_none hzero hfind ht).1]
            rfl

/-- **The step**: after a call the templates in the cache come from sources that were used. -/
theorem Sourced.after {calls : List Call} (h : Sourced config (uses decode config calls) e)
    (call : Call) : Sourced config (uses decode config (calls ++ [call])) (e.after decode call) := by
  have hconfig := h.configured
  cases hclear : call.isClear with
  | true =>
      cases call with
      | clear => exact ⟨hconfig, fun entry hentry => by cases hentry⟩
      | _ => cases hclear
  | false =>
      rw [uses_concat decode config calls hclear]
      cases hsource : call.source? decode config.encoding with
      | none =>
          rw [(of_no_source (by rw [hconfig]; exact hsource) hclear).2]
          refine ⟨hconfig, fun entry hentry => ?_⟩
          obtain ⟨s, hs, hstores⟩ := h.stored entry hentry
          exact ⟨s, List.mem_append_left _ hs, hstores⟩
      | some source =>
          rw [(of_source (by rw [hconfig]; exact hsource)).2]
          refine ⟨(config_compile e source).trans hconfig, fun entry hentry => ?_⟩
          rcases mem_cache_compile hentry with hold | hnew
          · obtain ⟨s, hs, hstores⟩ := h.stored entry hold
            exact ⟨s, List.mem_append_left _ hs, hstores⟩
          · -- a new template is there because its source compiled, which is a use
            rw [hconfig] at hnew
            have huse := use?_eq_some_iff.mpr ⟨hsource, _, hnew.2⟩
            exact ⟨source, by rw [huse]; simp, hnew⟩

/-- **The run**: after any calls the templates in the cache come from sources that were used. -/
theorem sourced_run (decode : Text.Decoder) (config : Config) (calls : List Call) :
    Sourced config (uses decode config calls) ((start config).run decode calls) := by
  induction calls using List.reverseRecOn with
  | nil => exact ⟨rfl, fun entry hentry => by cases hentry⟩
  | append_singleton calls call ih =>
      rw [run_concat]
      exact ih.after call

/-! ## The answers of an engine -/

/-- **A cache gives what compiling gives, up to the key.** After any calls, an engine answers a source
as compiling a source does that is this one, or has the same key and was used since the cache was last
cleared. So it answers as compiling this very source does, unless another one of the same key was
used. -/
theorem run_answers (decode : Text.Decoder) (config : Config) (calls : List Call) (source : String) :
    (∃ s, (s = source ∨ s ∈ uses decode config calls ∧ key s = key source) ∧
      Answers config ((start config).run decode calls) source s) ∧
    ((∀ s ∈ uses decode config calls, key s = key source → s = source) →
      Answers config ((start config).run decode calls) source source) := by
  obtain ⟨s, hs, hanswers⟩ := (sourced_run decode config calls).answers source
  refine ⟨⟨s, hs, hanswers⟩, fun hkeys => ?_⟩
  rcases hs with rfl | ⟨hmem, hkey⟩
  · exact hanswers
  · obtain rfl := hkeys s hmem hkey
    exact hanswers

/-- A configuration with room for one template. -/
def roomForOne : Config := ⟨none, none, 1, "utf-8"⟩

/-- A greeting. -/
def greeting : String := "Hello, 1f27b462d35bdc4d"

/-- A source that has a key of its own is answered as itself, although another one was used before. -/
theorem run_answers_farewell :
    (∀ s ∈ uses Text.decodeFile roomForOne [.compile greeting], key s = key "Bye" → s = "Bye") ∧
    Answers roomForOne ((start roomForOne).run Text.decodeFile [.compile greeting]) "Bye" "Bye" := by
  have hkey : (key "Hello, 1f27b462d35bdc4d").toList ≠ (key "Bye").toList := by
    simp only [toList_key]
    decide +kernel
  have hkeys : ∀ s ∈ uses Text.decodeFile roomForOne [.compile greeting],
      key s = key "Bye" → s = "Bye" := by
    intro s hs hsame
    obtain ⟨call, hcall, hsource⟩ := mem_sourcesOf_of_mem_uses hs
    obtain rfl := List.mem_singleton.mp hcall
    obtain rfl := Option.some.inj hsource
    exact absurd (congrArg String.toList hsame) hkey
  exact ⟨hkeys, (run_answers Text.decodeFile roomForOne [.compile greeting] "Bye").2 hkeys⟩

/-! ## Two sources of the same key -/

/-- **A source is answered as the one before it**, if that compiled, is kept, and has the same key. -/
theorem answers_of_key_eq {first second : String} (hsize : 0 < config.cacheSize)
    (hkey : key first = key second) {t : Template} (ht : Template.compile first config = .ok t) :
    Answers config ((start config).run decode [.compile first]) second first := by
  have hne : (start config).config.cacheSize ≠ 0 := Int.ne_of_gt hsize
  have hempty : (start config).cache.find? (fun entry => entry.1 == key first) = none := rfl
  have hengine := (compile_of_find_none hne hempty ht).2
  -- there is room for the template, and so it is what is found
  have hcache : ((start config).run decode [.compile first]).cache = [(key first, ⟨0, t⟩)] := by
    show ((start config).compile first).engine.cache = _
    rw [hengine]
    obtain ⟨n, hn⟩ : ∃ n, config.cacheSize.toNat = n + 1 :=
      ⟨_, (Nat.succ_pred_eq_of_pos (by omega)).symm⟩
    show trim config.cacheSize.toNat [(key first, ⟨0, t⟩)] = _
    rw [trim, hn, List.length_singleton, Nat.sub_eq_zero_of_le (by omega), List.drop_zero]
  have hfind : ((start config).run decode [.compile first]).cache.find?
      (fun entry => entry.1 == key second) = some (key first, ⟨0, t⟩) := by
    rw [hcache, List.find?_cons_of_pos (by simp [hkey])]
  have hconfig : ((start config).run decode [.compile first]).config = config :=
    config_compile (start config) first
  refine answers_of_template ?_
  rw [(compile_of_find_some (by rw [hconfig]; exact hne) hfind).1, ht]
  rfl

/-- A text in which nothing opens a site is its own source. -/
theorem renderDirectly_of_plain {t : String} (hplain : ¬ ['$', '\x7b'] <:+: t.toList)
    (entries : List (Value × Value)) :
    (∃ w, Template.compile t {} = .ok w) ∧ renderDirectly {} t (.map entries) = .ok t := by
  obtain ⟨w, hw, hrender⟩ := Template.compile_escape t.toList
  rw [Markup.escape_eq_self hplain, Markup.escape_eq_self hplain, String.ofList_toList] at hw
  refine ⟨⟨w, hw⟩, ?_⟩
  rw [renderDirectly, hw]
  show ((w.render (.map entries)).run .start).1.mapError _ = _
  rw [hrender, String.ofList_toList]
  rfl

/-- Another greeting, whose digest begins with the same sixteen digits. -/
def otherGreeting : String := "Hello, e6ab6ee166392574"

/-- The two greetings have the same key. -/
theorem key_greetings : key greeting = key otherGreeting := by
  have hdigits : (key "Hello, 1f27b462d35bdc4d").toList = (key "Hello, e6ab6ee166392574").toList := by
    simp only [toList_key]
    decide +kernel
  exact String.toList_inj.mp hdigits

/-- After the one greeting the other is rendered as the one, though compiling it renders it as itself. -/
theorem run_shared_key :
    (((start roomForOne).run Text.decodeFile [.compile greeting]).render
      otherGreeting (.map [])).result = .ok greeting ∧
    renderDirectly roomForOne otherGreeting (.map []) = .ok otherGreeting ∧
    ¬ Answers roomForOne ((start roomForOne).run Text.decodeFile [.compile greeting])
      otherGreeting otherGreeting := by
  obtain ⟨⟨w, hw⟩, hgreeting⟩ := renderDirectly_of_plain (t := greeting) (by decide) []
  obtain ⟨-, hother⟩ := renderDirectly_of_plain (t := otherGreeting) (by decide) []
  have hanswers : Answers roomForOne ((start roomForOne).run Text.decodeFile [.compile greeting])
      otherGreeting greeting :=
    answers_of_key_eq (by decide) key_greetings hw
  have hserved := (hanswers.rendering (.map [])).trans hgreeting
  refine ⟨hserved, hother, fun hself => ?_⟩
  have hboth := hserved.symm.trans ((hself.rendering (.map [])).trans hother)
  exact absurd (Except.ok.inj hboth) (by decide)

end Engine

end Stencil
