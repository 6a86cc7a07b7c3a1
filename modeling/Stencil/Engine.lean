import Stencil.Digest.Sha256
import Stencil.Template
import Stencil.Text.Encoding

/-! # The engine

An engine compiles templates under one configuration and keeps those used last, found by a key that
is computed from the source. -/

namespace Stencil

/-- What a file system holds under a path. -/
inductive Entry where
  /-- Nothing. -/
  | missing
  /-- A directory. -/
  | directory
  /-- A file with these bytes. -/
  | file (bytes : List UInt8)
  deriving DecidableEq, Repr

/-- A **compiled template** as an object of its own: no two compilations have the same number. -/
structure Compiled where
  /-- The number of the compilation. -/
  serial : Nat
  /-- The template. -/
  template : Template

/-- Why an engine fails. -/
inductive EngineError where
  /-- There is no file under this path. -/
  | notFound (path : String)
  /-- The bytes of the file are no text. -/
  | decode (e : Text.DecodeError)
  /-- The source is no template. -/
  | compile (e : CompileError)
  /-- Rendering fails. -/
  | render (e : RenderError)
  deriving DecidableEq, Repr

/-- The report of an engine error. -/
def EngineError.message : EngineError → String
  | .notFound path => "Template not found: " ++ path
  | .decode e => e.message
  | .compile e => e.message
  | .render e => e.message

/-- An **engine**. -/
structure Engine where
  /-- Its configuration. -/
  config : Config
  /-- The templates kept, with their keys, from the one used longest ago to the one used last. -/
  cache : List (String × Compiled) := []
  /-- The number of compilations so far. -/
  serials : Nat := 0

namespace Engine

/-- The **key** of a source: the first sixteen hexadecimal digits of the digest of its bytes in UTF-8. A
source is a row of characters, all of which have bytes; half of a surrogate pair is no character. -/
def key (source : String) : String := String.ofList ((Digest.sha256Hex source).toList.take 16)

/-- Drop the oldest templates until no more than a given number are left. -/
def trim (size : Nat) (cache : List (String × Compiled)) : List (String × Compiled) :=
  cache.drop (cache.length - size)

/-- The templates that are dropped. -/
def evicted (size : Nat) (cache : List (String × Compiled)) : List (String × Compiled) :=
  cache.take (cache.length - size)

/-- Put a template into a cache, as the one used last. -/
def use (k : String) (c : Compiled) (cache : List (String × Compiled)) : List (String × Compiled) :=
  cache.filter (fun e => e.1 != k) ++ [(k, c)]

/-- What a call of an engine **comes to**. -/
structure Outcome (α : Type) where
  /-- The answer or the error. -/
  result : Except EngineError α
  /-- The engine afterwards. -/
  engine : Engine
  /-- What was logged. -/
  events : List Event

/-- Compile a source anew. -/
def compileAnew (e : Engine) (source : String) : Outcome Compiled :=
  match Template.compile source e.config with
  | .ok t => ⟨.ok ⟨e.serials, t⟩, { e with serials := e.serials + 1 }, t.events⟩
  | .error err => ⟨.error (.compile err), e, []⟩

/-- **Compile a source**, or find it in the cache. -/
def compile (e : Engine) (source : String) : Outcome Compiled :=
  if e.config.cacheSize = 0 then e.compileAnew source
  else
    let k := key source
    match e.cache.find? fun entry => entry.1 == k with
    | some (_, c) => ⟨.ok c, { e with cache := use k c e.cache }, [.hit k]⟩
    | none =>
      let out := e.compileAnew source
      match out.result with
      | .error err => ⟨.error err, e, .miss k :: out.events⟩
      | .ok c =>
        let size := e.config.cacheSize.toNat
        let full := use k c e.cache
        ⟨.ok c, { out.engine with cache := trim size full },
          .miss k :: (out.events ++ (evicted size full).map fun entry => .evicted entry.1)⟩

/-- Compile a **template file**, which a decoder reads. -/
def compileFileWith (decode : Text.Decoder) (e : Engine) (path : String) (entry : Entry) :
    Outcome Compiled :=
  match entry with
  | .file bytes =>
    match decode e.config.encoding bytes with
    | .ok source => e.compile source
    | .error err => ⟨.error (.decode err), e, []⟩
  | _ => ⟨.error (.notFound path), e, []⟩

/-- Compile a template file in one of the encodings that are known here. -/
def compileFile (e : Engine) (path : String) (entry : Entry) : Outcome Compiled :=
  e.compileFileWith Text.decodeFile path entry

/-- Render a template with data, none of which was walked before. -/
def renderTemplate (e : Engine) (t : Template) (data : Value) : Outcome String :=
  let (result, account) := (t.render data).run Account.start
  ⟨result.mapError .render, e, account.log.toList⟩

/-- **Compile a source and render it.** -/
def render (e : Engine) (source : String) (data : Value) : Outcome String :=
  let out := e.compile source
  match out.result with
  | .error err => ⟨.error err, out.engine, out.events⟩
  | .ok c =>
    let rendered := out.engine.renderTemplate c.template data
    ⟨rendered.result, rendered.engine, out.events ++ rendered.events⟩

/-- Forget all templates. -/
def clear (e : Engine) : Engine := { e with cache := [] }

end Engine

end Stencil
