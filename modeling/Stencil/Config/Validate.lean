import Stencil.Config.Basic
import Stencil.Config.Integer

/-! # Checking settings

Settings become a configuration if all of them are right; otherwise all that is wrong is reported,
first the settings that there are, in their order, then the others as they were given. -/

namespace Stencil

/-- A problem and the setting that has it; the settings as a whole have no name. -/
structure Finding where
  /-- The name of the setting. -/
  name : Option SettingName
  /-- What is wrong with it. -/
  problem : Problem
  deriving DecidableEq, Repr

/-- The first line of a report about settings. -/
def Finding.summary (findings : List Finding) : String :=
  let n := findings.length
  Decimal.text n ++ " validation error" ++ (if n = 1 then "" else "s") ++ " for EngineConfig"

namespace Config

/-- A **validator** of settings: the configuration that they become, or all that is wrong with them. One of
the two always comes out. -/
abbrev Validator := List (SettingName × Setting) → Except (List Finding) Config

/-- The name of the greatest depth. -/
def depthName : String := "max_depth"

/-- The name of the greatest output. -/
def outputName : String := "max_output"

/-- The name of the cache size. -/
def cacheName : String := "cache_size"

/-- The name of the encoding. -/
def encodingName : String := "encoding"

/-- The names of the settings that there are, in order. -/
def names : List String := [depthName, outputName, cacheName, encodingName]

/-- The setting of a name, if it is given. -/
def given? (name : String) (settings : List (SettingName × Setting)) : Option Setting :=
  (settings.find? fun s => s.1 == .text name).map (·.2)

/-- Check the setting of a name; one that is not given has its default. -/
def check {α : Type} (name : String) (default : α) (read : Setting → Except Problem α)
    (settings : List (SettingName × Setting)) : Except Finding α :=
  match given? name settings with
  | none => .ok default
  | some s => (read s).mapError fun p => ⟨some (.text name), p⟩

/-- What is wrong with the names that are given. -/
def strangers (settings : List (SettingName × Setting)) : List Finding :=
  settings.filterMap fun s =>
    match s.1 with
    | .text name => if names.contains name then none else some ⟨some s.1, .extra⟩
    | _ => some ⟨some s.1, .badName⟩

/-- The finding of a failed check. -/
def finding {α : Type} : Except Finding α → List Finding
  | .ok _ => []
  | .error f => [f]

/-- Check settings that are a mapping. This is the **validator** that is run; what loading and overriding
make of settings is stated for any other one as well. -/
def validateEntries (settings : List (SettingName × Setting)) : Except (List Finding) Config :=
  let depth := check depthName none (Setting.optionalFrom leastDepth) settings
  let output := check outputName none (Setting.optionalFrom leastOutput) settings
  let cache := check cacheName ({} : Config).cacheSize (Setting.integerFrom leastCache) settings
  let encoding := check encodingName ({} : Config).encoding Setting.textual settings
  match depth, output, cache, encoding, strangers settings with
  | .ok d, .ok o, .ok c, .ok e, [] => .ok ⟨d, o, c, e⟩
  | _, _, _, _, others =>
    .error (finding depth ++ finding output ++ finding cache ++ finding encoding ++ others)

/-- **Check settings.** -/
def validate (settings : Settings) : Except (List Finding) Config :=
  match settings with
  | some entries => validateEntries entries
  | none => .error [⟨none, .notMapping⟩]

/-- A configuration as settings. -/
def settings (c : Config) : List (SettingName × Setting) :=
  let number : Option Int → Setting
    | none => .null
    | some n => .int n
  [(.text depthName, number c.maxDepth), (.text outputName, number c.maxOutput),
    (.text cacheName, .int c.cacheSize), (.text encodingName, .text c.encoding)]

end Config

/-- Why there is no **configuration**. -/
inductive ConfigError where
  /-- The document under this path cannot be read. -/
  | unreadable (path reason : String)
  /-- The document under this path is malformed. -/
  | unparsable (path : String)
  /-- The document under this path holds no mapping. -/
  | notMapping (path : String)
  /-- The section of the document under this path holds no mapping. -/
  | sectionNotMapping (path : String)
  /-- The settings from a source are wrong. -/
  | invalid (source : String) (findings : List Finding)
  /-- An error in the words of a caller. -/
  | other (text : String)
  deriving DecidableEq, Repr

/-- The name of the section of a document that holds the settings. -/
def Config.sectionName : String := "sprig"

/-- The report of a configuration error. -/
def ConfigError.message : ConfigError → String
  | .unreadable path reason => "Failed to read config file " ++ path ++ ": " ++ reason
  | .unparsable path => "Failed to parse YAML in " ++ path
  | .notMapping path => "Config in " ++ path ++ " must be a mapping"
  | .sectionNotMapping path =>
    "'" ++ Config.sectionName ++ "' section in " ++ path ++ " must be a mapping"
  | .invalid source findings =>
    "Invalid sprig config from " ++ source ++ ": " ++ Finding.summary findings
  | .other text => text

end Stencil
