/-! # Scalars

The text of a scalar. -/

namespace Stencil.Yaml

/-- The **content** of a scalar. -/
structure Content where
  /-- Its characters. -/
  text : List Char := []
  /-- Whether it is text as it is: an escape may name half of a surrogate pair. -/
  isText : Bool := true
  deriving DecidableEq, Repr

/-- The parts of a content joined. -/
def Content.append (a b : Content) : Content := ⟨a.text ++ b.text, a.isText && b.isText⟩

/-- A **scalar** as it is written. -/
structure Scalar where
  /-- Its content. -/
  content : Content
  /-- Whether it stands without quotes and marks, so that its form decides what it means. -/
  plain : Bool
  deriving DecidableEq, Repr

end Stencil.Yaml
