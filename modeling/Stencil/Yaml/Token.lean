import Stencil.Yaml.Property
import Stencil.Yaml.Scalar.Basic

/-! # Tokens of a document -/

namespace Stencil.Yaml

/-- A **token** of a document. The levels of block collections, which indentation marks, have tokens
at their beginning and their end, and so have the keys of mappings. -/
inductive Token where
  /-- A directive. -/
  | directive (d : Directive)
  /-- The marker at the beginning of a document. -/
  | documentStart
  /-- The marker at the end of a document. -/
  | documentEnd
  /-- The end of the text. -/
  | streamEnd
  /-- The beginning of an indented sequence. -/
  | blockSequenceStart
  /-- The beginning of an indented mapping. -/
  | blockMappingStart
  /-- The end of an indented collection. -/
  | blockEnd
  /-- An opening bracket. -/
  | flowSequenceStart
  /-- A closing bracket. -/
  | flowSequenceEnd
  /-- An opening brace. -/
  | flowMappingStart
  /-- A closing brace. -/
  | flowMappingEnd
  /-- The dash before an item. -/
  | blockEntry
  /-- The comma between items. -/
  | flowEntry
  /-- The beginning of a key. -/
  | key
  /-- The colon before a value. -/
  | value
  /-- A reference to an anchor. -/
  | alias (name : List Char)
  /-- An anchor. -/
  | anchor (name : List Char)
  /-- A tag. -/
  | tag (t : TagText)
  /-- A scalar. -/
  | scalar (s : Scalar)
  deriving DecidableEq, Repr

/-- The tokens of a document. Reading them may fail; then they are those that are certain before. -/
structure Tokens where
  /-- The tokens, in order. -/
  items : List Token
  /-- What is wrong behind them. -/
  fault : Fault := .malformed
  deriving DecidableEq, Repr

end Stencil.Yaml
