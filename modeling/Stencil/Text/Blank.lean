/-! # Blank characters

The blank characters of Unicode, and the two ways the library uses them: trimming a text and taking
its first word. -/

namespace Stencil.Text

/-- Whether a character is **blank**: the bidirectional classes of white space and separators, which
include the four information separators (U+001C to U+001F) and the next-line control (U+0085), but
neither the zero-width space nor the byte order mark. -/
def isBlank (c : Char) : Bool :=
  let n := c.toNat
  (0x09 ≤ n && n ≤ 0x0D) || (0x1C ≤ n && n ≤ 0x20) || n == 0x85 || n == 0xA0 || n == 0x1680 ||
    (0x2000 ≤ n && n ≤ 0x200A) || n == 0x2028 || n == 0x2029 || n == 0x202F || n == 0x205F ||
    n == 0x3000

/-- Drop the blanks at the front. -/
def trimLeft (s : List Char) : List Char := s.dropWhile isBlank

/-- Drop the blanks at the back. -/
def trimRight (s : List Char) : List Char := (s.reverse.dropWhile isBlank).reverse

/-- Drop the blanks at both ends. -/
def trim (s : List Char) : List Char := trimRight (trimLeft s)

/-- A text without the blanks at its ends. -/
def trimmed (s : String) : String := String.ofList (trim s.toList)

@[simp] theorem trim_nil : trim [] = [] := rfl

@[simp] theorem toList_trimmed (s : String) : (trimmed s).toList = trim s.toList := by
  simp [trimmed]

/-- Split off the first **word** of a text: the blanks before it are dropped, and the second part is
all that follows it, blanks included. -/
def firstWord (s : List Char) : List Char × List Char :=
  let t := trimLeft s
  (t.takeWhile (!isBlank ·), t.dropWhile (!isBlank ·))

/-- The words of a text: its longest runs of characters that are not blank. -/
def words (s : List Char) : List (List Char) :=
  (s.splitBy fun a b => isBlank a == isBlank b).filter fun run => run.any (!isBlank ·)

/-- Cut a text at the first `stop`: what stands before it and what stands after it. -/
def cut? (stop : Char) (s : List Char) : Option (List Char × List Char) :=
  match s.dropWhile (· != stop) with
  | [] => none
  | _ :: after => some (s.takeWhile (· != stop), after)

/-- What follows the cut is shorter than the text. -/
theorem length_lt_of_cut? {stop : Char} {s inside after : List Char}
    (h : cut? stop s = some (inside, after)) : after.length < s.length := by
  have hlen := congrArg List.length (List.takeWhile_append_dropWhile (p := (· != stop)) (l := s))
  unfold cut? at h
  split at h
  · simp at h
  · rename_i c rest hd
    simp only [Option.some.injEq, Prod.mk.injEq] at h
    rw [hd] at hlen
    simp only [List.length_append, List.length_cons] at hlen
    rw [← h.2]
    omega

/-- A text that is cut is the part before, the stop and the part after; the part before holds no
stop. -/
theorem eq_of_cut? {stop : Char} {s inside after : List Char}
    (h : cut? stop s = some (inside, after)) :
    s = inside ++ stop :: after ∧ stop ∉ inside := by
  have hspan := List.takeWhile_append_dropWhile (p := (· != stop)) (l := s)
  unfold cut? at h
  split at h
  · simp at h
  · rename_i c rest hd
    simp only [Option.some.injEq, Prod.mk.injEq] at h
    have hc : c = stop := by
      have hhead := List.head?_dropWhile_not (p := (· != stop)) (l := s)
      rw [hd] at hhead
      simpa using hhead
    subst hc
    obtain ⟨rfl, rfl⟩ := h
    refine ⟨by rw [hd] at hspan; exact hspan.symm, fun hmem => ?_⟩
    have := List.all_eq_true.1 (List.all_takeWhile (p := (· != c)) (l := s)) c hmem
    simp at this

/-- A text is cut as soon as it holds the stop: at the first one. -/
theorem cut?_append_cons {stop : Char} {inside : List Char} (h : stop ∉ inside)
    (after : List Char) : cut? stop (inside ++ stop :: after) = some (inside, after) := by
  have hall : ∀ c ∈ inside, (c != stop) = true := by
    intro c hc
    rw [bne_iff_ne]
    rintro rfl
    exact h hc
  rw [cut?, List.dropWhile_append_of_pos hall, List.takeWhile_append_of_pos hall]
  simp

/-- Only a text without the stop is not cut. -/
theorem cut?_eq_none_iff {stop : Char} {s : List Char} : cut? stop s = none ↔ stop ∉ s := by
  constructor
  · intro h hmem
    obtain ⟨inside, after, hs, hinside⟩ := List.eq_append_cons_of_mem hmem
    rw [hs, cut?_append_cons hinside] at h
    cases h
  · intro h
    cases hc : cut? stop s with
    | none => rfl
    | some p => exact absurd (by rw [(eq_of_cut? hc).1]; simp) h

end Stencil.Text
