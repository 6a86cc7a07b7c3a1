import Stencil.Config.Validate
import Stencil.Text.Blank

/-! # Settings from the environment

Variables of the environment override the numbers of a configuration. A variable that is blank counts
as not set. -/

namespace Stencil.Config

/-- The environment: names and values of variables. -/
abbrev Environment := List (String × String)

/-- The names of the settings that variables override, with the names of the variables. -/
def variableNames : List (String × String) :=
  [(depthName, "SPRIG_MAX_DEPTH"), (outputName, "SPRIG_MAX_OUTPUT"),
    (cacheName, "SPRIG_CACHE_SIZE")]

/-- The value of a variable without blanks around it, unless it is blank. -/
def override? (environment : Environment) (variableName : String) : Option String :=
  match (environment.find? fun v => v.1 == variableName).map fun v => Text.trimmed v.2 with
  | some value => if value.isEmpty then none else some value
  | none => none

/-- The settings that are overridden, with the texts that override them. -/
def overrides (environment : Environment) : List (String × String) :=
  variableNames.filterMap fun v => (override? environment v.2).map fun value => (v.1, value)

/-- Put other settings in the place of those of the same names. -/
def replace (settings : List (SettingName × Setting)) (others : List (String × String)) :
    List (SettingName × Setting) :=
  settings.map fun s =>
    match others.find? fun o => s.1 == .text o.1 with
    | some o => (s.1, .text o.2)
    | none => s

/-- A configuration, and whether it is the one that was there before. -/
structure Overridden where
  /-- The configuration. -/
  config : Config
  /-- Whether nothing was overridden. -/
  isBase : Bool
  deriving DecidableEq, Repr

/-- **Override a configuration** by the environment. A validator checks the settings together. -/
def overrideWith (validate : Validator) (base : Config) (environment : Environment) :
    Except ConfigError Overridden :=
  match overrides environment with
  | [] => .ok ⟨base, true⟩
  | others =>
    match validate (replace base.settings others) with
    | .ok config => .ok ⟨config, false⟩
    | .error findings => .error (.invalid "environment" findings)

/-- Override a configuration by the environment, under the checks that are run. -/
def overrideBy (base : Config) (environment : Environment) : Except ConfigError Overridden :=
  overrideWith validateEntries base environment

end Stencil.Config
