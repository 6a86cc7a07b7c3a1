import Stencil.Proofs.Value.Part
import Stencil.Proofs.Value.Scope

/-! # Data without streams

Values that hold no stream at any depth can be walked any number of times.

* `StreamFree.part`: what can be read out of such a value is such a value.
* `StreamFree.resolve`: what a path leads to in such a value is such a value.
* `StreamFree.pairs`: so are the keys and values of its pairs.
* `StreamFree.iterationBind`: so is the scope of a round of an iteration. -/

namespace Stencil

/-- Whether a value **holds no stream**, neither itself nor in its parts. -/
inductive StreamFree : Value → Prop
  | null : StreamFree .null
  | undefined : StreamFree .undefined
  | bool (b : Bool) : StreamFree (.bool b)
  | int (n : Int) : StreamFree (.int n)
  | float (x : Double) : StreamFree (.float x)
  | text (s : String) : StreamFree (.text s)
  | bytes (bs : List UInt8) : StreamFree (.bytes bs)
  | list {items : List Value} (parts : ∀ v ∈ items, StreamFree v) : StreamFree (.list items)
  | tuple {items : List Value} (parts : ∀ v ∈ items, StreamFree v) : StreamFree (.tuple items)
  | map {entries : List (Value × Value)} (keys : ∀ e ∈ entries, StreamFree e.1)
      (parts : ∀ e ∈ entries, StreamFree e.2) : StreamFree (.map entries)
  | object {attributes : List (String × Value)} (parts : ∀ e ∈ attributes, StreamFree e.2) :
      StreamFree (.object attributes)
  | range (start stop step : Int) : StreamFree (.range start stop step)
  | callable (f : Callable) : StreamFree (.callable f)

namespace StreamFree

/-! ## What a path leads to -/

/-- **The parts of a value** without streams hold none. -/
theorem part {v w : Value} (h : StreamFree v) (hw : Part v w) : StreamFree w := by
  cases hw with
  | undefined => exact .undefined
  | key mem => cases h with | map keys _ => exact keys _ mem
  | value mem => cases h with | map _ parts => exact parts _ mem
  | listItem mem => cases h with | list parts => exact parts _ mem
  | tupleItem mem => cases h with | tuple parts => exact parts _ mem
  | member mem => cases h with | object parts => exact parts _ mem
  | streamItem | idle | nothing => cases h
  | character => exact .text _
  | byte | rangeItem | position | integer | bit => exact .int _
  | double | zero => exact .float _
  | callable => exact .callable _

/-- Following keys in a value without streams. -/
theorem follow {v : Value} (h : StreamFree v) {keys : List Key} {w : Value}
    (hw : v.follow keys = .ok w) : StreamFree w := by
  induction keys generalizing v with
  | nil => cases hw; exact h
  | cons key keys ih =>
      obtain ⟨u, hu, hw⟩ := bind_eq_ok_iff.mp hw
      exact ih (h.part (.of_step hu)) hw

/-- **What a path leads to** in a value without streams holds none. -/
theorem resolve {v : Value} (h : StreamFree v) {path : Path} {w : Value}
    (hw : v.resolve path = .ok w) : StreamFree w := h.follow hw

/-! ## Pairs and scopes -/

/-- **The pairs of a value** without streams hold none. -/
theorem pairs {v : Value} (h : StreamFree v) : ∀ p ∈ v.pairs, StreamFree p.1 ∧ StreamFree p.2 :=
  fun _ hp => ⟨h.part (Part.of_mem_pairs hp).1, h.part (Part.of_mem_pairs hp).2⟩

/-- Setting an entry in a mapping without streams. -/
theorem setEntry {key v : Value} {entries : List (Value × Value)} (hkey : StreamFree key)
    (hv : StreamFree v) (h : StreamFree (.map entries)) :
    StreamFree (.map (Value.setEntry key v entries)) := by
  cases h with
  | map keys parts =>
      have hentries := Value.forall_mem_setEntry hkey hv keys parts
      exact .map (fun e he => (hentries e he).1) fun e he => (hentries e he).2

/-- Binding a name in a scope without streams. -/
theorem bind {scope v : Value} (h : StreamFree scope) (hv : StreamFree v) (name : String) :
    StreamFree (scope.bind name v) := by
  cases h with
  | map keys parts => exact setEntry (.text name) hv (.map keys parts)
  | _ => constructor <;> assumption

/-- **The scope of a round** of an iteration. -/
theorem iterationBind {scope : Value} (h : StreamFree scope) (it : Iteration) {pair : Value × Value}
    (hpair : StreamFree pair.1 ∧ StreamFree pair.2) : StreamFree (it.bind scope pair) := by
  unfold Iteration.bind
  cases it.keyName with
  | none => exact h.bind hpair.2 _
  | some name => exact (h.bind hpair.2 _).bind hpair.1 _

end StreamFree

end Stencil
