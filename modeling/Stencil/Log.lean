import Stencil.Condition.Operator

/-! # Log events

What the library reports while it works, for whoever wants to watch it; no result depends on it. -/

namespace Stencil

/-- A **log event**. -/
inductive Event where
  /-- Two sides of a comparison have no order. -/
  | incomparable (left : Value) (op : Operator) (right : Value)
  /-- A placeholder has no text and is shown as it is written. -/
  | unresolved (raw : String)
  /-- A tree was built of this many tokens. -/
  | built (tokens : Nat)
  /-- A source of this many characters became a template of this many branches at its top. -/
  | compiled (characters branches : Nat)
  /-- A template was found in the cache. -/
  | hit (key : String)
  /-- A template was not found in the cache. -/
  | miss (key : String)
  /-- A template was dropped from the cache. -/
  | evicted (key : String)

/-- The **part of the library** that an event comes from. -/
inductive Reporter where
  /-- The conditions. -/
  | conditions
  /-- The rendering of text. -/
  | rendering
  /-- The building of trees. -/
  | building
  /-- The templates. -/
  | templates
  /-- The engine. -/
  | engine
  deriving DecidableEq, Repr

namespace Event

/-- Where an event comes from. -/
def reporter : Event → Reporter
  | .incomparable _ _ _ => .conditions
  | .unresolved _ => .rendering
  | .built _ => .building
  | .compiled _ _ => .templates
  | .hit _ | .miss _ | .evicted _ => .engine

/-- The wording of an event. -/
def message : Event → String
  | .incomparable l op r =>
    "Cannot compare " ++ l.display ++ " " ++ op.text ++ " " ++ r.display ++ ", treating as false"
  | .unresolved raw => "Placeholder " ++ raw ++ " left unresolved"
  | .built tokens => "Built template tree from " ++ Decimal.text tokens ++ " tokens"
  | .compiled characters branches =>
    "Compiled template (" ++ Decimal.text characters ++ " chars, " ++ Decimal.text branches ++
      " top-level branches)"
  | .hit key => "Template cache hit " ++ key
  | .miss key => "Template cache miss " ++ key
  | .evicted key => "Evicted template " ++ key

end Event

/-- How much is logged. -/
inductive LogLevel where
  /-- Everything. -/
  | debug
  /-- Progress and warnings. -/
  | info
  /-- Warnings only. -/
  | warning
  deriving DecidableEq, Repr

/-- How the log is **set up**. -/
structure LogSetup where
  /-- The least level that is shown. -/
  level : LogLevel
  /-- Whether events also go to the log of the surrounding program. -/
  propagate : Bool
  /-- The number of handlers. -/
  handlers : Nat
  /-- Whether the handler shows the time. -/
  showTime : Bool
  /-- Whether the handler shows where an event comes from. -/
  showPath : Bool
  /-- Whether the handler writes to the standard error. -/
  toStandardError : Bool
  deriving DecidableEq, Repr

/-- Set up the log. Any text in the debug variable that is not empty turns on debugging, which wins
over `verbose`. -/
def LogSetup.ofSwitches (verbose : Bool) (debugVariable : Option String) : LogSetup :=
  let debug := debugVariable.any (!·.isEmpty)
  { level := if debug then .debug else if verbose then .info else .warning
    propagate := false
    handlers := 1
    showTime := verbose
    showPath := debug
    toStandardError := true }

end Stencil
