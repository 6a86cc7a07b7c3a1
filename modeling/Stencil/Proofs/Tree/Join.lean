import Stencil.Proofs.Markup.Seam
import Stencil.Proofs.Tree.Outcome

/-! # Joining and wrapping trees

The tree of two rows of tokens that are put together, and of a row of tokens inside a directive.

* `Condition.parse_of_trim_eq` and `Iteration.parse_of_trim_eq`: what a header says depends neither on
  its offset nor on blanks around its arguments.
* `Tree.build_seam`: where two rows meet, their trees meet in the same way.
* `Tree.build_directive`: a row inside a directive is the content of one branch. -/

namespace Stencil

/-! ## The arguments of a directive -/

/-- **What a condition says** depends neither on its offset nor on blanks around it. -/
theorem Condition.parse_of_trim_eq {arguments arguments' : String} {offset : Option Int}
    {c : Condition} (h : Condition.parse arguments offset = .ok c)
    (htrim : Text.trim arguments'.toList = Text.trim arguments.toList) (offset' : Option Int) :
    Condition.parse arguments' offset' = .ok c := by
  -- the offset stands in reports only, and the reading above has none
  unfold Condition.parse at h ⊢
  rw [htrim]
  cases hsplit : split? (Text.trim arguments.toList) with
  | none => rw [hsplit] at h; cases h
  | some written =>
      rw [hsplit] at h
      obtain ⟨path, hpath, h⟩ := bind_eq_ok_iff.mp h
      refine bind_eq_ok_iff.mpr ⟨path, mapError_eq_ok_iff.mpr (mapError_eq_ok_iff.mp hpath), ?_⟩
      cases hcomparison : written.comparison with
      | none => rw [hcomparison] at h; exact h
      | some comparison =>
          obtain ⟨spelling, operand⟩ := comparison
          rw [hcomparison] at h
          cases hop : Operator.ofSpelling? spelling with
          | none => simp only [hop] at h; cases h
          | some op =>
              simp only [hop] at h ⊢
              obtain ⟨v, hoperand, h⟩ := bind_eq_ok_iff.mp h
              exact bind_eq_ok_iff.mpr ⟨v, mapError_eq_ok_iff.mpr (mapError_eq_ok_iff.mp hoperand), h⟩

/-- **What an iteration says** depends neither on its offset nor on blanks around it. -/
theorem Iteration.parse_of_trim_eq {arguments arguments' : String} {offset : Option Int}
    {it : Iteration} (h : Iteration.parse arguments offset = .ok it)
    (htrim : Text.trim arguments'.toList = Text.trim arguments.toList) (offset' : Option Int) :
    Iteration.parse arguments' offset' = .ok it := by
  unfold Iteration.parse at h ⊢
  rw [htrim]
  cases hsplit : split? (Text.trim arguments.toList) with
  | none => rw [hsplit] at h; cases h
  | some written =>
      rw [hsplit] at h
      obtain ⟨path, hpath, h⟩ := bind_eq_ok_iff.mp h
      exact bind_eq_ok_iff.mpr ⟨path, mapError_eq_ok_iff.mpr (mapError_eq_ok_iff.mp hpath), h⟩

/-- Two text branches become one; their segments meet like the texts themselves. -/
def Branch.fuse : Branch → Branch → Option Branch
  | .text segments, .text segments' => some (.text (seam Segment.fuse segments segments'))
  | _, _ => none

namespace Tree

namespace Forest

/-! ## Moving a forest -/

/-- A forest, moved by a number of characters. -/
def shift (k : Nat) : Forest → Forest
  | .empty => .empty
  | .text offset content rest => .text (k + offset) content (rest.shift k)
  | .directive offset name arguments children stop rest =>
      .directive (k + offset) name arguments (children.shift k) (k + stop) (rest.shift k)

/-- The tokens of a moved forest are the moved tokens. -/
@[simp] theorem tokens_shift (k : Nat) (f : Forest) :
    (f.shift k).tokens = f.tokens.map (Token.shift k) := by
  induction f with
  | empty => rfl
  | text offset content rest ih => rw [shift, tokens, ih]; rfl
  | directive offset name arguments children stop rest ihc ihr =>
      rw [shift, tokens, ihc, ihr, tokens, List.map_cons, List.map_append, List.map_cons]
      rfl

/-- A moved forest stands for the same branches. -/
theorem Yields.shift {f : Forest} {bs : List Branch} (h : f.Yields bs) (k : Nat) :
    (f.shift k).Yields bs := by
  induction h with
  | empty => exact .empty
  | text scanned _ ih => exact .text scanned ih
  | conditional read _ _ ihc ihr => exact .conditional (Condition.parse_of_trim_eq read rfl _) ihc ihr
  | repeated read _ _ ihc ihr => exact .repeated (Iteration.parse_of_trim_eq read rfl _) ihc ihr

/-! ## Joining forests at a text -/

/-- **One forest after another**, where a text that ends the first and one that begins the second
become one. -/
def join : Forest → Forest → Forest
  | .empty, g => g
  | .text offset content .empty, .text _ content' rest => .text offset (content ++ content') rest
  | .text offset content rest, g => .text offset content (rest.join g)
  | .directive offset name arguments children stop rest, g =>
      .directive offset name arguments children stop (rest.join g)

/-- The tokens of joined forests meet like their texts. -/
theorem tokens_join (f g : Forest) : (f.join g).tokens = seam Token.fuse f.tokens g.tokens := by
  induction f with
  | empty => rfl
  | text offset content rest ih =>
      cases rest with
      | empty => cases g <;> rfl
      | text offset' content' rest =>
          show _ :: ((text offset' content' rest).join g).tokens = _
          rw [ih]
          rfl
      | directive offset' name arguments children stop rest =>
          show _ :: ((directive offset' name arguments children stop rest).join g).tokens = _
          rw [ih]
          rfl
  | directive offset name arguments children stop rest _ ih =>
      rw [join, tokens, ih, tokens, seam_cons (fun _ => rfl), seam_append_cons (fun _ => rfl)]

/-- What ends the trees after a directive ends the whole. -/
theorem getLast?_tokens {offset stop : Int} {name arguments : String} {children rest : Forest}
    {t : Token} (h : rest.tokens.getLast? = some t) :
    (directive offset name arguments children stop rest).tokens.getLast? = some t := by
  rw [tokens, List.getLast?_cons, List.getLast?_append, List.getLast?_cons, h]
  rfl

/-- **The branches of joined forests** meet like their texts, if a text that ends the first is
closed. -/
theorem Yields.join {f g : Forest} {bs cs : List Branch} (hf : f.Yields bs) (hg : g.Yields cs)
    (hclosed : ∀ offset content, f.tokens.getLast? = some (.text offset content) →
      Closed content.toList) :
    (f.join g).Yields (seam Branch.fuse bs cs) := by
  induction hf with
  | empty => exact hg
  | @text offset content segments rest after scanned later ih =>
      -- a text meets the second forest only if nothing stands behind it in the first
      cases later with
      | empty =>
          cases hg with
          | empty => exact .text scanned .empty
          | @text offset' content' segments' rest' after' scanned' later' =>
              refine .text ?_ later'
              rw [Segment.scan_append (hclosed offset content rfl), scanned, scanned']
              rfl
          | conditional read within later' => exact .text scanned (.conditional read within later')
          | repeated read within later' => exact .text scanned (.repeated read within later')
      | text scanned' later' => exact .text scanned (ih hclosed)
      | conditional read within later' => exact .text scanned (ih hclosed)
      | repeated read within later' => exact .text scanned (ih hclosed)
  | conditional read within _ _ ih =>
      rw [seam_cons (fun _ => rfl)]
      exact .conditional read within (ih fun o c hlast => hclosed o c (getLast?_tokens hlast))
  | repeated read within _ _ ih =>
      rw [seam_cons (fun _ => rfl)]
      exact .repeated read within (ih fun o c hlast => hclosed o c (getLast?_tokens hlast))

end Forest

/-! ## The tree of a row -/

/-- **The trees of two rows of tokens** meet like the rows, if a run of text that ends the first row
is closed. -/
theorem build_seam {ts us : List Token} {bs cs : List Branch} (hts : build ts none = .ok bs)
    (hus : build us none = .ok cs)
    (hclosed : ∀ offset content, ts.getLast? = some (.text offset content) → Closed content.toList)
    (k : Nat) :
    build (seam Token.fuse ts (us.map (Token.shift k))) none = .ok (seam Branch.fuse bs cs) := by
  obtain ⟨f, rfl, hf⟩ := build_eq_ok_iff.mp hts
  obtain ⟨g, rfl, hg⟩ := build_eq_ok_iff.mp hus
  refine build_eq_ok_iff.mpr ⟨f.join (g.shift k), ?_, hf.join (hg.shift k) hclosed⟩
  rw [Forest.tokens_join, Forest.tokens_shift]

/-- **The tree of a row inside a directive** is one branch, that of the header of the directive. -/
theorem build_directive {ts : List Token} {bs : List Branch} (hts : build ts none = .ok bs)
    {offset : Int} {name arguments : String} {h : Header}
    (hread : Header.parse name arguments offset = .ok h) (k : Nat) (stop : Int) :
    build (.opening offset name arguments :: (ts.map (Token.shift k) ++ [.closing stop name])) none =
      .ok [h.branch bs] := by
  obtain ⟨f, rfl, hf⟩ := build_eq_ok_iff.mp hts
  refine build_eq_ok_iff.mpr ⟨.directive offset name arguments (f.shift k) stop .empty, ?_, ?_⟩
  · rw [Forest.tokens, Forest.tokens_shift]
    rfl
  · exact .directive hread (hf.shift k) .empty

end Tree

end Stencil
