import Stencil.Value.Equality

/-! # Order of values

How two values stand to each other: numbers by their exact size, texts and bytes by their code points
and bytes, lists and tuples by the first place at which they differ. All other pairs have no order.
Main statement: exchanging two numbers reverses their order (`Number.compare_swap`). -/

namespace Stencil

/-- How one value **stands** to another. -/
inductive Standing where
  /-- Before it. -/
  | less
  /-- At the same place. -/
  | same
  /-- After it. -/
  | greater
  /-- Numbers of which one is a NaN: neither before nor after nor at the same place. -/
  | unordered
  /-- Values between which no order is defined. -/
  | incomparable
  deriving DecidableEq, Repr

namespace Standing

/-- The standing of the second value to the first. -/
def swap : Standing → Standing
  | .less => .greater
  | .greater => .less
  | s => s

end Standing

/-- How two points of the number line stand to each other. -/
def Extended.compare (a b : Extended) : Standing :=
  if a == b then .same else if a.lt b then .less else .greater

/-- Exchanging two points reverses their standing. -/
theorem Extended.compare_swap (a b : Extended) : (a.compare b).swap = b.compare a := by
  cases a <;> cases b <;> simp [Extended.compare, Extended.lt, Standing.swap]
  rename_i r s
  by_cases h : r = s
  · simp [h]
  · have h2 : ¬ s = r := fun e => h e.symm
    by_cases hlt : r < s
    · have hle : r ≤ s := Rat.le_of_lt hlt
      have : ¬ s < r := fun e => h (Rat.le_antisymm hle (Rat.le_of_lt e))
      simp [h, h2, hlt, this]
    · have hle : s ≤ r := Rat.not_lt.1 hlt
      have : s < r := Rat.lt_of_le_of_ne hle h2
      simp [h, h2, hlt, this]

/-- How two numbers stand to each other. -/
def Number.compare (a b : Number) : Standing :=
  match a.position?, b.position? with
  | some p, some q => p.compare q
  | _, _ => .unordered

/-- Exchanging two numbers reverses their standing. -/
theorem Number.compare_swap (a b : Number) : (a.compare b).swap = b.compare a := by
  unfold Number.compare
  cases a.position? <;> cases b.position?
  · rfl
  · rfl
  · rfl
  · exact Extended.compare_swap _ _

namespace Value

/-- How two values that are no collections of values stand to each other. -/
def atomCompare (a b : Value) : Standing :=
  match a.number?, b.number? with
  | some m, some n => m.compare n
  | some _, none => .incomparable
  | none, some _ => .incomparable
  | none, none =>
    match a, b with
    | .text s, .text t => if s == t then .same else if s < t then .less else .greater
    | .bytes s, .bytes t => if s == t then .same else if s < t then .less else .greater
    | _, _ => .incomparable

mutual

/-- How two values **stand to each other**. -/
def compare : Value → Value → Standing
  | .list xs, .list ys => itemsCompare xs ys
  | .tuple xs, .tuple ys => itemsCompare xs ys
  | a, b => atomCompare a b
termination_by structural v => v

/-- How two rows of values stand to each other: the first unequal pair decides, and of two rows
without one the shorter comes first. -/
def itemsCompare : List Value → List Value → Standing
  | [], [] => .same
  | [], _ :: _ => .less
  | _ :: _, [] => .greater
  | x :: xs, y :: ys => if equal x y then itemsCompare xs ys else compare x y
termination_by structural v => v

end

end Value

end Stencil
