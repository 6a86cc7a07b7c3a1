/-! # Faults of documents -/

namespace Stencil.Yaml

/-- What has to **hold a number**. -/
inductive Holder where
  /-- A machine word, for the number of a character. -/
  | word
  /-- A double, for the weight of a digit. -/
  | double
  deriving DecidableEq, Repr

/-- Why a value of a document **cannot be built**. -/
inductive ConstructionError where
  /-- A text is not of the form that its tag asks for, or out of range. -/
  | value (text : String)
  /-- An empty text was to be read as a number. -/
  | emptyText
  /-- A text that is no truth value was to be read as one. -/
  | unknownWord (word : String)
  /-- A text that is no point in time was to be read as one. -/
  | noTimestamp
  /-- A number is too large for what has to hold it. -/
  | codeSize {holder : Holder}
  deriving DecidableEq, Repr

/-- What is **wrong with a document**. -/
inductive Fault where
  /-- It breaks the rules of the format. -/
  | malformed
  /-- One of its values cannot be built. -/
  | construction (e : ConstructionError)
  deriving DecidableEq, Repr

end Stencil.Yaml
