import Stencil.Value.Display

/-! # Settings as they are given

The settings of a configuration before they are checked: whatever stands for them in a document, in
the environment or in a program. -/

namespace Stencil

/-- A **setting** as it is given. -/
inductive Setting where
  /-- Nothing. -/
  | null
  /-- A truth value. -/
  | bool (b : Bool)
  /-- An integer. -/
  | int (n : Int)
  /-- A double. -/
  | float (x : Double)
  /-- A text. -/
  | text (s : String)
  /-- A row of bytes. -/
  | bytes (bs : List UInt8)
  /-- A text with half of a surrogate pair in it. -/
  | brokenText
  /-- Anything else. -/
  | other
  deriving DecidableEq, Repr

/-- The **name of a setting** as it is given. -/
inductive SettingName where
  /-- A text. -/
  | text (s : String)
  /-- An integer, or a truth value as zero or one. -/
  | int (n : Int)
  /-- Anything else, by its name in messages. -/
  | other (display : String)
  deriving DecidableEq, Repr

/-- Settings that are given: names and settings, if they are a mapping at all. -/
abbrev Settings := Option (List (SettingName × Setting))

namespace SettingName

/-- An integer as a name; one that does not fit a machine word is named by its text. -/
def ofInt (n : Int) : SettingName :=
  if -Int.pow 2 63 ≤ n ∧ n < Int.pow 2 63 then .int n else .other (Decimal.text n)

/-- A value as the name of a setting. -/
def ofValue : Value → SettingName
  | .text s => .text s
  | .bool b => .int (if b then 1 else 0)
  | .int n => ofInt n
  | v => .other v.display

end SettingName

namespace Setting

/-- A value as a setting. -/
def ofValue : Value → Setting
  | .null => .null
  | .bool b => .bool b
  | .int n => .int n
  | .float x => .float x
  | .text s => .text s
  | .bytes bs => .bytes bs
  | _ => .other

end Setting

/-- A value as settings. -/
def Settings.ofValue : Value → Settings
  | .map entries => some (entries.map fun e => (.ofValue e.1, .ofValue e.2))
  | _ => none

end Stencil
