/-! # Configuration

The settings of an engine: limits, the size of its cache, and the encoding of template files. -/

namespace Stencil

/-- A **configuration**. -/
structure Config where
  /-- The greatest depth of nested directives. -/
  maxDepth : Option Int := none
  /-- The greatest number of characters that one rendering writes. -/
  maxOutput : Option Int := none
  /-- The number of templates kept; zero turns the cache off. -/
  cacheSize : Int := 128
  /-- The encoding of template files. -/
  encoding : String := "utf-8"
  deriving DecidableEq, Repr

namespace Config

/-- The least depth limit. -/
def leastDepth : Int := 1

/-- The least output limit. -/
def leastOutput : Int := 0

/-- The least cache size. -/
def leastCache : Int := 0

/-- Whether all settings are within their bounds. -/
def Valid (c : Config) : Prop :=
  (∀ n ∈ c.maxDepth, leastDepth ≤ n) ∧ (∀ n ∈ c.maxOutput, leastOutput ≤ n) ∧
    leastCache ≤ c.cacheSize

/-- The default configuration is valid. -/
theorem valid_default : ({} : Config).Valid := by
  simp [Valid, leastCache]

end Config

end Stencil
