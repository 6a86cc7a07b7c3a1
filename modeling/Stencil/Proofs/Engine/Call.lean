import Stencil.Engine

/-! # Calls of an engine

What one call does to an engine. Files are read by any decoder, of which nothing is used.

* `Call` are the calls; `handed` is the template that a call gets, and `after` the engine after it.
* `of_source` and `of_no_source`: a call compiles the source that it is on, or finds it; a call that
  comes to no source fails.
* `compile_of_find_some`, `compile_of_find_none` and `compile_of_error` say what compiling a source comes
  to.
* `serials_le_after`: calls count compilations upwards. -/

namespace Stencil.Engine

/-- A **call** of an engine. -/
inductive Call where
  /-- Compile a source. -/
  | compile (source : String)
  /-- Compile a source and render it. -/
  | render (source : String) (data : Value)
  /-- Compile a template file. -/
  | compileFile (path : String) (entry : Entry)
  /-- Forget all templates. -/
  | clear

namespace Call

/-- The **source** that a call is on, if it comes to one. -/
def source? (decode : Text.Decoder) (encoding : String) : Call → Option String
  | .compile source => some source
  | .render source _ => some source
  | .compileFile _ (.file bytes) => (decode encoding bytes).toOption
  | .compileFile _ _ => none
  | .clear => none

/-- Whether a call forgets all templates. -/
def isClear : Call → Bool
  | .clear => true
  | _ => false

end Call

/-- The **template that a call gets**, or why it gets none. -/
def handed (decode : Text.Decoder) (e : Engine) : Call → Option (Except EngineError Compiled)
  | .compile source => some (e.compile source).result
  | .render source _ => some (e.compile source).result
  | .compileFile path entry => some (e.compileFileWith decode path entry).result
  | .clear => none

/-- The engine **after a call**. -/
def after (decode : Text.Decoder) (e : Engine) : Call → Engine
  | .compile source => (e.compile source).engine
  | .render source data => (e.render source data).engine
  | .compileFile path entry => (e.compileFileWith decode path entry).engine
  | .clear => e.clear

/-- The engine **after a run** of calls. -/
def run (decode : Text.Decoder) (e : Engine) (calls : List Call) : Engine :=
  calls.foldl (after decode) e

variable {decode : Text.Decoder} {e : Engine} {call : Call} {source : String}

/-- A call on a source compiles it, or finds it. -/
theorem of_source (h : call.source? decode e.config.encoding = some source) :
    e.handed decode call = some (e.compile source).result ∧
      e.after decode call = (e.compile source).engine := by
  cases call with
  | compile s =>
      obtain rfl := Option.some.inj h
      exact ⟨rfl, rfl⟩
  | render s data =>
      obtain rfl := Option.some.inj h
      refine ⟨rfl, ?_⟩
      simp only [after, render]
      split <;> rfl
  | compileFile path entry =>
      cases entry with
      | file bytes =>
          have hdecode : decode e.config.encoding bytes = .ok source := by
            simp only [Call.source?] at h
            cases hd : decode e.config.encoding bytes with
            | error err => rw [hd] at h; cases h
            | ok s => rw [hd] at h; obtain rfl := Option.some.inj h; rfl
          simp only [handed, after, compileFileWith, hdecode, and_self]
      | missing => cases h
      | directory => cases h
  | clear => cases h

/-- A call that comes to no source fails, and leaves the engine as it is, unless it clears the cache. -/
theorem of_no_source (h : call.source? decode e.config.encoding = none) (hclear : call.isClear = false) :
    (∃ err, e.handed decode call = some (.error err)) ∧ e.after decode call = e := by
  cases call with
  | compile s => cases h
  | render s data => cases h
  | compileFile path entry =>
      cases entry with
      | file bytes =>
          simp only [Call.source?] at h
          cases hd : decode e.config.encoding bytes with
          | ok s => rw [hd] at h; cases h
          | error err =>
              refine ⟨⟨.decode err, ?_⟩, ?_⟩
              · simp only [handed, compileFileWith, hd]
              · simp only [after, compileFileWith, hd]
      | missing => exact ⟨⟨_, rfl⟩, rfl⟩
      | directory => exact ⟨⟨_, rfl⟩, rfl⟩
  | clear => cases hclear

/-! ## One compilation -/

/-- Without a cache every source is compiled anew. -/
theorem compile_of_eq_zero (h : e.config.cacheSize = 0) (source : String) :
    e.compile source = e.compileAnew source := if_pos h

/-- A source that is found. -/
theorem compile_of_find_some (h : e.config.cacheSize ≠ 0) {entry : String × Compiled}
    (hfind : e.cache.find? (fun entry => entry.1 == key source) = some entry) :
    (e.compile source).result = .ok entry.2 ∧
      (e.compile source).engine = { e with cache := use (key source) entry.2 e.cache } := by
  simp only [compile, if_neg h, hfind, and_self]

/-- A source that is not found, and compiles. -/
theorem compile_of_find_none (h : e.config.cacheSize ≠ 0)
    (hfind : e.cache.find? (fun entry => entry.1 == key source) = none) {t : Template}
    (ht : Template.compile source e.config = .ok t) :
    (e.compile source).result = .ok ⟨e.serials, t⟩ ∧
      (e.compile source).engine = { e with
        cache := trim e.config.cacheSize.toNat (use (key source) ⟨e.serials, t⟩ e.cache)
        serials := e.serials + 1 } := by
  simp only [compile, if_neg h, hfind, compileAnew, ht, and_self]

/-- A source that is not found, and does not compile. -/
theorem compile_of_error (hfind : e.cache.find? (fun entry => entry.1 == key source) = none)
    {err : CompileError} (herr : Template.compile source e.config = .error err) :
    (e.compile source).result = .error (.compile err) ∧ (e.compile source).engine = e := by
  by_cases h : e.config.cacheSize = 0
  · simp only [compile_of_eq_zero h, compileAnew, herr, and_self]
  · simp only [compile, if_neg h, hfind, compileAnew, herr, and_self]

/-- **What compiling changes** in an engine: its cache, and the count of compilations, upwards. -/
theorem exists_engine_compile (e : Engine) (source : String) : ∃ cache serials, e.serials ≤ serials ∧
    (e.compile source).engine = { e with cache := cache, serials := serials } := by
  have hanew : ∃ serials, e.serials ≤ serials ∧
      (e.compileAnew source).engine = { e with serials := serials } := by
    rw [compileAnew]
    split
    · exact ⟨_, Nat.le_succ _, rfl⟩
    · exact ⟨_, Nat.le_refl _, rfl⟩
  obtain ⟨serials, hle, hengine⟩ := hanew
  rw [compile]
  split
  · exact ⟨_, serials, hle, hengine⟩
  · dsimp only
    split
    · exact ⟨_, _, Nat.le_refl _, rfl⟩
    · split
      · exact ⟨_, _, Nat.le_refl _, rfl⟩
      · exact ⟨_, serials, hle, by rw [hengine]⟩

/-- Compilations are counted upwards. -/
theorem serials_le_compile (e : Engine) (source : String) :
    e.serials ≤ (e.compile source).engine.serials := by
  obtain ⟨cache, serials, hle, hengine⟩ := exists_engine_compile e source
  rw [hengine]
  exact hle

/-- Compiling leaves the configuration as it is. -/
theorem config_compile (e : Engine) (source : String) : (e.compile source).engine.config = e.config := by
  obtain ⟨cache, serials, -, hengine⟩ := exists_engine_compile e source
  rw [hengine]

/-- Calls count compilations upwards. -/
theorem serials_le_after (decode : Text.Decoder) (e : Engine) (call : Call) :
    e.serials ≤ (e.after decode call).serials := by
  cases hsource : call.source? decode e.config.encoding with
  | some source =>
      rw [(of_source hsource).2]
      exact serials_le_compile e source
  | none =>
      cases hclear : call.isClear with
      | false => exact Nat.le_of_eq (congrArg Engine.serials (of_no_source hsource hclear).2.symm)
      | true =>
          cases call with
          | clear => exact Nat.le_refl _
          | _ => cases hclear

end Stencil.Engine
