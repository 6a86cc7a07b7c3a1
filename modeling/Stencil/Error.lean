import Stencil.Config.Validate
import Stencil.Engine
import Stencil.Pathname

/-! # Errors

All errors of the library under one roof, and how they are classified. -/

namespace Stencil

/-- The **kind of an error**. Every kind but the most general one is a special case of another. -/
inductive ErrorKind where
  /-- Any error. -/
  | any
  /-- Any compile error. -/
  | compile
  /-- An opening marker that is no directive. -/
  | invalidDirective
  /-- An end marker that closes something else. -/
  | mismatchedClose
  /-- A directive that is never closed. -/
  | unclosed
  /-- Directives nested too deep. -/
  | tooDeep
  /-- Any render error. -/
  | render
  /-- Too much output. -/
  | outputLimit
  /-- A template file that is not there. -/
  | notFound
  /-- A configuration that cannot be had. -/
  | config
  deriving DecidableEq, Repr

namespace ErrorKind

/-- The kind that a kind is a special case of. -/
def parent? : ErrorKind → Option ErrorKind
  | .any => none
  | .compile | .render | .notFound | .config => some .any
  | .invalidDirective | .mismatchedClose | .unclosed | .tooDeep => some .compile
  | .outputLimit => some .render

/-- The kinds that a kind is a special case of, from the nearest up. -/
def ancestors (k : ErrorKind) : List ErrorKind :=
  match k.parent? with
  | none => []
  | some p =>
    match p.parent? with
    | none => [p]
    | some q => [p, q]

end ErrorKind

/-- An **error of the library**. -/
inductive Error where
  /-- An error in the words of a caller. -/
  | other (text : String)
  /-- A compile error. -/
  | compile (e : CompileError)
  /-- A render error. -/
  | render (e : RenderError)
  /-- There is no template file under this path. -/
  | notFound (path : String)
  /-- A configuration error. -/
  | config (e : ConfigError)
  deriving DecidableEq, Repr

namespace Error

/-- The kind of an error. Errors that are not of the library itself, but of the values it is given,
have none. -/
def kind? : Error → Option ErrorKind
  | .other _ => some .any
  | .compile (.invalidDirective _ _ _ _) => some .invalidDirective
  | .compile (.mismatchedClose _ _ _) => some .mismatchedClose
  | .compile (.unclosed _ _) => some .unclosed
  | .compile (.tooDeep _ _) => some .tooDeep
  | .compile (.other _ _) => some .compile
  | .compile _ => none
  | .render (.outputLimit _) => some .outputLimit
  | .render (.other _) => some .render
  | .render _ => none
  | .notFound _ => some .notFound
  | .config _ => some .config

/-- The report of an error. -/
def message : Error → String
  | .other text => text
  | .compile e => e.message
  | .render e => e.message
  | .notFound path => (EngineError.notFound path).message
  | .config e => e.message

/-- The error about a template file of a name that is not in normal form. -/
def templateNotFound (name : String) : Error := .notFound (Pathname.normalize name)

end Error

end Stencil
