import Stencil.Log
import Stencil.Tree.Basic
import Stencil.Value.Pairs

/-! # Rendering

A tree is rendered in a scope, with an account of the characters written, of the streams already
walked, and of what was logged. Only the text branches are charged for. -/

namespace Stencil

/-- Why rendering fails. -/
inductive RenderError where
  /-- The output is longer than the limit. -/
  | outputLimit (limit : Int)
  /-- The data are no mapping, but of this kind. -/
  | notMapping (kind : String)
  /-- A conversion was refused because of its size. -/
  | limit (l : Limit)
  /-- An error in the words of a caller. -/
  | other (text : String)
  deriving DecidableEq, Repr

/-- The report of a render error. -/
def RenderError.message : RenderError → String
  | .outputLimit n => "Rendered output exceeds " ++ Decimal.text n ++ " characters"
  | .notMapping kind => "Template data must be a mapping, got " ++ kind
  | .limit l => l.message
  | .other text => text

/-- The **account** of a rendering. -/
structure Account where
  /-- The number of characters charged so far. -/
  used : Nat
  /-- The streams that were walked. -/
  drained : List Nat
  /-- What was logged, in order. -/
  log : Array Event

/-- An empty account. -/
def Account.start : Account := ⟨0, [], #[]⟩

/-- Rendering: it may fail, and keeps its account also when it does. -/
abbrev Render := ExceptT RenderError (StateM Account)

namespace Render

/-- Refused conversions fail the rendering. -/
def ofLimit {α : Type} (x : Except Limit α) : Render α :=
  match x with
  | .ok a => pure a
  | .error l => throw (.limit l)

/-- Log an event. -/
def note (e : Event) : Render Unit := modify fun a => { a with log := a.log.push e }

/-- Charge for a text, up to a limit if there is one. -/
def charge (limit : Option Int) (text : String) : Render Unit := do
  modify fun a => { a with used := a.used + text.length }
  match limit with
  | none => pure ()
  | some n => do
    let a ← get
    if n < a.used then throw (.outputLimit n)

/-- The pairs of a value. A stream that was walked before has none, and after this it has been. -/
def walk (v : Value) : Render (List (Value × Value)) :=
  match v with
  | .stream id items => do
    let a ← get
    if a.drained.contains id then pure []
    else do
      set { a with drained := id :: a.drained }
      pure (Value.enumerate items)
  | v => pure v.pairs

end Render

/-- The text of a segment in a scope. A placeholder whose value has no text is shown as written. -/
def Segment.render (scope : Value) : Segment → Render String
  | .literal s => pure s
  | .placeholder path raw => do
    let v ← Render.ofLimit (scope.resolve path)
    match ← Render.ofLimit v.scalar? with
    | some s => pure s
    | none => do
      Render.note (.unresolved raw)
      pure raw

/-- Render a text branch, and charge for it. -/
def Segment.renderAll (limit : Option Int) (scope : Value) (segments : List Segment) :
    Render String := do
  let parts ← segments.mapM (Segment.render scope)
  let text := String.join parts
  Render.charge limit text
  pure text

/-- Test a condition; a comparison without an order is logged. -/
def Condition.render (scope : Value) (c : Condition) : Render Bool := do
  let verdict ← Render.ofLimit (c.test? scope)
  match c.test, verdict.clash with
  | .compare op _, some (l, r) => Render.note (.incomparable l op r)
  | _, _ => pure ()
  pure verdict.holds

/-- Bind a name in a scope, which is a mapping. -/
def Value.bind (scope : Value) (name : String) (v : Value) : Value :=
  match scope with
  | .map entries => .map (setEntry (.text name) v entries)
  | scope => scope

/-- The scope of one round of an iteration: the name of the value is bound first, then that of the
key. -/
def Iteration.bind (it : Iteration) (scope : Value) (pair : Value × Value) : Value :=
  let inner := scope.bind it.valueName pair.2
  match it.keyName with
  | none => inner
  | some name => inner.bind name pair.1

mutual

/-- **Render a branch** in a scope. -/
def Branch.render (limit : Option Int) : Branch → Value → Render String
  | .text segments, scope => Segment.renderAll limit scope segments
  | .conditional c children, scope => do
    if ← c.render scope then Branch.renderAll limit children scope else pure ""
  | .repeated it children, scope => do
    let v ← Render.ofLimit (scope.resolve it.collection)
    let pairs ← Render.walk v
    let parts ← pairs.mapM fun pair => Branch.renderAll limit children (it.bind scope pair)
    pure (String.join parts)
termination_by structural b => b

/-- Render a row of branches in a scope. -/
def Branch.renderAll (limit : Option Int) : List Branch → Value → Render String
  | [], _ => pure ""
  | b :: bs, scope => do
    let first ← Branch.render limit b scope
    let rest ← Branch.renderAll limit bs scope
    pure (first ++ rest)
termination_by structural bs => bs

end

end Stencil
