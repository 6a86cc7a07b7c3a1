import Stencil.Config.Basic
import Stencil.Tree.Build
import Stencil.Tree.Render

/-! # Templates

A source compiled under a configuration, to be rendered any number of times. -/

namespace Stencil

/-- A **template**. -/
structure Template where
  /-- Its branches. -/
  tree : List Branch
  /-- Its source. -/
  source : String
  /-- The greatest number of characters of one rendering. -/
  maxOutput : Option Int

namespace Template

/-- **Compile a source.** -/
def compile (source : String) (config : Config) : Except CompileError Template := do
  let tree ← Tree.build (Token.scan source) config.maxDepth
  return ⟨tree, source, config.maxOutput⟩

/-- What compiling a template logs. -/
def events (t : Template) : List Event :=
  [.built (Token.scan t.source).length, .compiled t.source.length t.tree.length]

/-- Compile a value, which must be a text. -/
def compileValue (source : Value) (config : Config) : Except CompileError Template :=
  match source with
  | .text s => compile s config
  | _ => .error .notText

/-- **Render a template** with data: a mapping, or nothing at all, which is an empty one. Each
rendering is charged for on its own. -/
def render (t : Template) (data : Value) : Render String := do
  let scope ←
    match data with
    | .null => pure (.map [])
    | .map entries => pure (.map entries)
    | v => throw (.notMapping v.kind)
  modify fun a => { a with used := 0 }
  Branch.renderAll t.maxOutput t.tree scope

end Template

end Stencil
