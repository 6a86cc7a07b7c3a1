import Stencil.Config.Validate
import Stencil.Engine
import Stencil.Yaml.Datum

/-! # Configuration documents

A configuration file is a document in YAML: a mapping of settings, or a mapping with a section that
holds them. An empty document, or an empty section, gives the default configuration.

What reads a document and what checks its settings are parameters of `Config.loadWith`: a `Yaml.Reader` and
a `Config.Validator`. `Config.load` is what is run. -/

namespace Stencil

/-! ## Readers -/

namespace Yaml

/-- Why a **document is not read**. -/
inductive ReadFault (ε : Type) where
  /-- Its file cannot be read, or its bytes are no text, for this reason. -/
  | unreadable (reason : String)
  /-- It breaks the rules of the format. -/
  | malformed
  /-- Reading it fails with an error of another kind. -/
  | foreign (e : ε)
  deriving DecidableEq, Repr

/-- A **reader** of documents: the datum in the bytes of a file. -/
abbrev Reader (ε : Type) := List UInt8 → Except (ReadFault ε) Datum

/-- What is wrong with the text of a document, as a fault of reading it. -/
def Fault.toReadFault : Fault → ReadFault ConstructionError
  | .malformed => .malformed
  | .construction e => .foreign e

/-- The **reader** that is run. It decodes all bytes first, and so looks at the text only if all of them can
be decoded; how deep collections are nested does not matter to it. -/
def read : Reader ConstructionError := fun bytes => do
  let text ← (Text.Utf8.decodeBlocks [] bytes).mapError fun bad => .unreadable (bad.message "utf-8")
  (Datum.ofText (Text.unifyLines text)).mapError Fault.toReadFault

end Yaml

/-- Why there is **no configuration** under a path. -/
inductive LoadFailure (ε : Type) where
  /-- There is nothing under this path. -/
  | notFound (path : String)
  /-- The document is wrong. -/
  | config (e : ConfigError)
  /-- Reading the document fails with an error of another kind, as where a value cannot be built. -/
  | construction (e : ε)
  deriving DecidableEq, Repr

/-- Why there is no configuration if the document is read by the reader that is run. -/
abbrev LoadError := LoadFailure Yaml.ConstructionError

/-- The report of a value that cannot be built. -/
def Yaml.ConstructionError.message : Yaml.ConstructionError → String
  | .value text => text
  | .emptyText => "string index out of range"
  | .unknownWord word => Text.quoted word
  | .noTimestamp => "'NoneType' object has no attribute 'groupdict'"
  | @Yaml.ConstructionError.codeSize .word => "Python int too large to convert to C int"
  | @Yaml.ConstructionError.codeSize .double => "int too large to convert to float"

/-- The report of an error. -/
def LoadError.message : LoadError → String
  | .notFound path => "Config file not found: " ++ path
  | .config e => e.message
  | .construction e => e.message

/-! ## Data as settings -/

/-- A datum as the name of a setting. -/
def SettingName.ofDatum : Yaml.Datum → SettingName
  | .value v => .ofValue v
  | .brokenText s => .other s
  | .moment display => .other display
  | _ => .other ""

/-- A datum as a setting. -/
def Setting.ofDatum : Yaml.Datum → Setting
  | .value v => .ofValue v
  | .brokenText _ => .brokenText
  | _ => .other

namespace Yaml.Datum

/-- Whether a datum counts as **empty**: nothing, false, zero, or a text or collection without
parts. -/
def isEmpty : Datum → Bool
  | .value v => !v.truth
  | .sequence items => items.isEmpty
  | .mapping entries => entries.isEmpty
  | .set members => members.isEmpty
  | .brokenText _ | .moment _ | .enclosing _ => false

/-- Look up a text among the keys of a mapping. -/
def lookup? (key : String) (entries : List (Datum × Datum)) : Option Datum :=
  (entries.find? fun e => sameKey (.value (.text key)) e.1).map (·.2)

/-- The settings that the entries of a mapping give. -/
def settings (entries : List (Datum × Datum)) : List (SettingName × Setting) :=
  entries.map fun e => (.ofDatum e.1, .ofDatum e.2)

end Yaml.Datum

/-! ## Loading -/

namespace Config

open Yaml (Datum)

/-- The entries of a datum that has to be a mapping, unless it is empty. -/
def entriesOr (notMapping : ConfigError) : Datum → Except ConfigError (List (Datum × Datum))
  | .mapping entries => .ok entries
  | d => if d.isEmpty then .ok [] else .error notMapping

/-- The settings of a document: those of its section, if it has one. -/
def documentSettings (path : String) (root : Datum) :
    Except ConfigError (List (SettingName × Setting)) := do
  let entries ← entriesOr (.notMapping path) root
  match Datum.lookup? sectionName entries with
  | none => return Datum.settings entries
  | some found => return Datum.settings (← entriesOr (.sectionNotMapping path) found)

/-- The configuration of a document, whose settings a validator checks. -/
def ofDatum (validate : Validator) (path : String) (root : Datum) : Except ConfigError Config := do
  let settings ← documentSettings path root
  (validate settings).mapError (.invalid path)

/-- **Load a configuration** from what is found under a path. A reader reads the document, and a validator
checks the settings. -/
def loadWith {ε : Type} (read : Yaml.Reader ε) (validate : Validator) (path : String) :
    Entry → Except (LoadFailure ε) Config
  | .missing => .error (.notFound path)
  | .directory =>
    .error (.config (.unreadable path ("[Errno 21] Is a directory: " ++ Text.quoted path)))
  | .file bytes =>
    match read bytes with
    | .ok root => (ofDatum validate path root).mapError .config
    | .error (.unreadable reason) => .error (.config (.unreadable path reason))
    | .error .malformed => .error (.config (.unparsable path))
    | .error (.foreign e) => .error (.construction e)

/-- Load a configuration with the reader and the checks that are run. -/
def load (path : String) (entry : Entry) : Except LoadError Config :=
  loadWith Yaml.read validateEntries path entry

end Config

end Stencil
