import Stencil.Proofs.Result
import Stencil.Tree.Build

/-! # Forests of tokens

The grammar that the stack of `Tree.build` works through. A **forest** is an ordered row of texts
and directives, and a directive encloses a forest of its own.

* `Forest.tokens` writes a forest down as a row of tokens, every directive as an opening marker, its
  content and a closing marker of the same name; `Forest.eq_of_tokens_eq` says that no row of tokens
  is written by two forests.
* `Forest.Yields` relates a forest to the branches it stands for; not every forest has branches, since
  the arguments of a directive may be faulty.
* `Forest.Yields.run` is the forward half of the correctness of the stack: over the tokens of a
  forest it adds the branches of the forest to the innermost level, and touches nothing else. -/

namespace Stencil.Header

/-- **Which headers can be read**: that of a condition or of an iteration, under its own name. -/
theorem parse_eq_ok_iff {name arguments : String} {offset : Int} {h : Header} :
    parse name arguments offset = .ok h ↔
      (name = "if" ∧ ∃ c, Condition.parse arguments (some offset) = .ok c ∧ h = .condition c) ∨
      (name = "each" ∧ ∃ it, Iteration.parse arguments (some offset) = .ok it ∧
        h = .iteration it) := by
  constructor
  · intro hp
    unfold parse at hp
    split at hp
    · obtain ⟨c, hc, rfl⟩ := map_eq_ok_iff.mp hp
      exact Or.inl ⟨‹_›, c, hc, rfl⟩
    · split at hp
      · obtain ⟨it, hit, rfl⟩ := map_eq_ok_iff.mp hp
        exact Or.inr ⟨‹_›, it, hit, rfl⟩
      · cases hp
  · rintro (⟨rfl, c, hc, rfl⟩ | ⟨rfl, it, hit, rfl⟩)
    · rw [parse, if_pos (by rfl), hc]
      rfl
    · rw [parse, if_neg (by decide), if_pos (by rfl), hit]
      rfl

/-- A header is read only under its own name. -/
theorem directive_of_parse {name arguments : String} {offset : Int} {h : Header}
    (hp : parse name arguments offset = .ok h) : h.directive = name := by
  rcases parse_eq_ok_iff.mp hp with ⟨rfl, c, -, rfl⟩ | ⟨rfl, it, -, rfl⟩
  · rfl
  · rfl

end Stencil.Header

namespace Stencil.Tree

/-- An **ordered forest** of texts and directives, each with its offsets in a source. -/
inductive Forest where
  /-- No tree at all. -/
  | empty
  /-- A text, and the trees after it. -/
  | text (offset : Int) (content : String) (rest : Forest)
  /-- A directive with the offsets of both its markers, and the trees after it. -/
  | directive (offset : Int) (name arguments : String) (children : Forest) (stop : Int)
      (rest : Forest)
  deriving DecidableEq, Repr

namespace Forest

/-- The **linearisation** of a forest. -/
def tokens : Forest → List Token
  | .empty => []
  | .text offset content rest => .text offset content :: rest.tokens
  | .directive offset name arguments children stop rest =>
      .opening offset name arguments :: (children.tokens ++ .closing stop name :: rest.tokens)

/-- One forest after another. -/
def append : Forest → Forest → Forest
  | .empty, g => g
  | .text offset content rest, g => .text offset content (rest.append g)
  | .directive offset name arguments children stop rest, g =>
      .directive offset name arguments children stop (rest.append g)

/-- **What a forest stands for**: a text stands for its segments, and a directive for the branch of
its decoded header around the branches of its children. Only the two known directives stand for
anything, and only with arguments that can be read. -/
inductive Yields : Forest → List Branch → Prop
  | empty : Yields .empty []
  | text {offset : Int} {content : String} {segments : List Segment} {rest : Forest}
      {after : List Branch} (scanned : Segment.scan content = .ok segments)
      (later : Yields rest after) :
      Yields (.text offset content rest) (.text segments :: after)
  | conditional {offset stop : Int} {arguments : String} {c : Condition} {children rest : Forest}
      {inner after : List Branch} (read : Condition.parse arguments (some offset) = .ok c)
      (within : Yields children inner) (later : Yields rest after) :
      Yields (.directive offset "if" arguments children stop rest) (.conditional c inner :: after)
  | repeated {offset stop : Int} {arguments : String} {it : Iteration} {children rest : Forest}
      {inner after : List Branch} (read : Iteration.parse arguments (some offset) = .ok it)
      (within : Yields children inner) (later : Yields rest after) :
      Yields (.directive offset "each" arguments children stop rest) (.repeated it inner :: after)

/-- A directive whose header can be read stands for the branch of that header. -/
theorem Yields.directive {offset stop : Int} {name arguments : String} {h : Header}
    {children rest : Forest} {inner after : List Branch}
    (read : Header.parse name arguments offset = .ok h) (within : Yields children inner)
    (later : Yields rest after) :
    Yields (.directive offset name arguments children stop rest) (h.branch inner :: after) := by
  rcases Header.parse_eq_ok_iff.mp read with ⟨rfl, c, hc, rfl⟩ | ⟨rfl, it, hit, rfl⟩
  · exact .conditional hc within later
  · exact .repeated hit within later

/-! ## Joining forests -/

/-- The tokens of joined forests are the joined tokens. -/
@[simp] theorem tokens_append (f g : Forest) : (f.append g).tokens = f.tokens ++ g.tokens := by
  induction f with
  | empty => rfl
  | text offset content rest ih =>
      rw [append, tokens, tokens, ih, List.cons_append]
  | directive offset name arguments children stop rest _ ih =>
      rw [append, tokens, tokens, ih, List.cons_append, List.append_assoc, List.cons_append]

/-- Joined forests stand for the joined branches. -/
theorem Yields.append {f g : Forest} {bs cs : List Branch} (hf : f.Yields bs) (hg : g.Yields cs) :
    (f.append g).Yields (bs ++ cs) := by
  induction hf with
  | empty => exact hg
  | text scanned _ ih => exact .text scanned ih
  | conditional read within _ _ ih => exact .conditional read within ih
  | repeated read within _ _ ih => exact .repeated read within ih

/-! ## Linearisation is injective -/

/-- Whether a row of tokens ends here or goes on with a closing marker: what can follow the content
of a directive. -/
def Stops (ts : List Token) : Prop := ∀ t ∈ ts.head?, ∃ offset name, t = .closing offset name

/-- Two forests whose tokens agree, whatever closes after them, are the same. -/
theorem eq_of_tokens_append_eq {f g : Forest} {x y : List Token} (hx : Stops x) (hy : Stops y)
    (h : f.tokens ++ x = g.tokens ++ y) : f = g ∧ x = y := by
  induction f generalizing g x y with
  | empty =>
      cases g with
      | empty => exact ⟨rfl, by simpa [tokens] using h⟩
      | text => simp [tokens] at h; simp [h, Stops] at hx
      | directive => simp [tokens] at h; simp [h, Stops] at hx
  | text offset content rest ih =>
      cases g with
      | empty => simp [tokens] at h; simp [← h, Stops] at hy
      | text =>
          simp only [tokens, List.cons_append, List.cons.injEq, Token.text.injEq] at h
          obtain ⟨⟨rfl, rfl⟩, h⟩ := h
          obtain ⟨rfl, hxy⟩ := ih hx hy h
          exact ⟨rfl, hxy⟩
      | directive => simp [tokens] at h
  | directive offset name arguments children stop rest ihc ihr =>
      cases g with
      | empty => simp [tokens] at h; simp [← h, Stops] at hy
      | text => simp [tokens] at h
      | directive =>
          simp only [tokens, List.cons_append, List.append_assoc, List.cons.injEq,
            Token.opening.injEq] at h
          obtain ⟨⟨rfl, rfl, rfl⟩, h⟩ := h
          -- the children end at their closing markers, whose tails are then compared in turn
          obtain ⟨rfl, hclose⟩ := ihc (by simp [Stops]) (by simp [Stops]) h
          simp only [List.cons.injEq, Token.closing.injEq] at hclose
          obtain ⟨⟨rfl, -⟩, hrest⟩ := hclose
          obtain ⟨rfl, hxy⟩ := ihr hx hy hrest
          exact ⟨rfl, hxy⟩

/-- **No row of tokens is written by two forests.** -/
theorem eq_of_tokens_eq {f g : Forest} (h : f.tokens = g.tokens) : f = g :=
  (eq_of_tokens_append_eq (x := []) (y := []) (by simp [Stops]) (by simp [Stops])
    (by rw [h])).1

end Forest

/-! ## Steps of the stack -/

/-- A text that can be scanned comes to the innermost level. -/
theorem take_text {content : String} {segments : List Segment}
    (hs : Segment.scan content = .ok segments) (d : Option Int) (s : State) (offset : Int) :
    s.take d (.text offset content) = .ok (s.add (.text segments)) := by
  rw [State.take, hs]
  rfl

/-- Without a limit, opening a directive is reading its header and putting it on the stack. -/
theorem opened_none (s : State) (offset : Int) (name arguments : String) :
    s.opened none offset name arguments = (do
      let h ← Header.parse name arguments offset
      return ⟨[], ⟨h, offset, s.level⟩ :: s.frames⟩) := by
  by_cases hname : Header.directives.contains name = true
  · rw [State.opened, if_pos hname, if_neg (by simp)]
  · have hne : name ≠ Condition.directive ∧ name ≠ Iteration.directive := by
      simpa [Header.directives] using hname
    rw [State.opened, if_neg hname, Header.parse, if_neg hne.1, if_neg hne.2, error_bind]

/-- Without a limit, an opening marker that can be read puts its header on the stack. -/
theorem take_opening {name arguments : String} {offset : Int} {h : Header}
    (hp : Header.parse name arguments offset = .ok h) (s : State) :
    s.take none (.opening offset name arguments) = .ok ⟨[], ⟨h, offset, s.level⟩ :: s.frames⟩ := by
  rw [State.take, opened_none, hp]
  rfl

/-- A closing marker of the innermost name takes its frame off the stack. -/
theorem take_closing (d : Option Int) (level : List Branch) (f : Frame) (frames : List Frame)
    (offset : Int) :
    State.take d ⟨level, f :: frames⟩ (.closing offset f.header.directive)
      = .ok ⟨f.header.branch level.reverse :: f.before, frames⟩ := by
  simp only [State.take, State.closed, if_true]

/-! ## The stack over a forest -/

namespace Forest

/-- The stack over a directive, given what it does over the children and over the trees after it. -/
theorem run_directive {name arguments : String} {offset stop : Int} {h : Header}
    {children rest : Forest} {inner after : List Branch}
    (hp : Header.parse name arguments offset = .ok h)
    (hchildren : ∀ s : State, children.tokens.foldlM (State.take none) s
      = .ok ⟨inner.reverse ++ s.level, s.frames⟩)
    (hrest : ∀ s : State, rest.tokens.foldlM (State.take none) s
      = .ok ⟨after.reverse ++ s.level, s.frames⟩) (s : State) :
    (directive offset name arguments children stop rest).tokens.foldlM (State.take none) s
      = .ok ⟨(h.branch inner :: after).reverse ++ s.level, s.frames⟩ := by
  -- the content is gathered on a level of its own, which the closing marker turns into one branch
  obtain rfl := Header.directive_of_parse hp
  rw [tokens, List.foldlM_cons, take_opening hp, ok_bind, List.foldlM_append, hchildren,
    ok_bind, List.foldlM_cons, take_closing, ok_bind, hrest]
  simp

/-- **A forest on the stack.** Over the tokens of a forest the stack of open directives stays as it
is, and the branches of the forest come to the innermost level. -/
theorem Yields.run {f : Forest} {bs : List Branch} (h : f.Yields bs) (s : State) :
    f.tokens.foldlM (State.take none) s = .ok ⟨bs.reverse ++ s.level, s.frames⟩ := by
  induction h generalizing s with
  | empty => rfl
  | text scanned _ ih =>
      rw [tokens, List.foldlM_cons, take_text scanned, ok_bind, ih]
      simp [State.add]
  | @conditional _ _ _ c _ _ _ _ read _ _ ihc ihr =>
      have hp := Header.parse_eq_ok_iff.mpr (Or.inl ⟨rfl, c, read, rfl⟩)
      exact run_directive hp ihc ihr s
  | @repeated _ _ _ it _ _ _ _ read _ _ ihc ihr =>
      have hp := Header.parse_eq_ok_iff.mpr (Or.inr ⟨rfl, it, read, rfl⟩)
      exact run_directive hp ihc ihr s

end Forest

end Stencil.Tree
