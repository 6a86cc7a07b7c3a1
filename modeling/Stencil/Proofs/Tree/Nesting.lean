import Stencil.Proofs.Tree.Depth

/-! # How deep a tree is nested

A limit to the depth only filters: it refuses what is nested deeper, and changes nothing of the rest.

* `Branch.nestingAll` is the greatest number of directives around a place of a tree, and
  `State.nesting` is the same for a tree under construction; `nesting_of_take` says how a token changes
  it.
* `run_limited_iff`: the stack takes the same tokens under a limit and without one, as long as what it
  builds is not nested deeper.
* `OpensBelow` says that a token is the marker at which a limit is exceeded; `run_of_shallow` and
  `build_of_opensBelow` say what becomes of the tokens before it and of the token itself.
* `build_limited` puts this together for a whole row of tokens. -/

namespace Stencil

/-! ## The nesting of a tree -/

mutual

/-- The nesting of a branch: how many directives there are, one in the other. -/
def Branch.nesting : Branch → Nat
  | .text _ => 0
  | .conditional _ children => Branch.nestingAll children + 1
  | .repeated _ children => Branch.nestingAll children + 1
termination_by structural b => b

/-- **The nesting of a row of branches**, which is that of its deepest one. -/
def Branch.nestingAll : List Branch → Nat
  | [] => 0
  | b :: bs => max (Branch.nesting b) (Branch.nestingAll bs)
termination_by structural bs => bs

end

namespace Branch

@[simp] theorem nestingAll_nil : nestingAll [] = 0 := rfl

@[simp] theorem nestingAll_cons (b : Branch) (bs : List Branch) :
    nestingAll (b :: bs) = max b.nesting (nestingAll bs) := rfl

/-- Two rows together are nested as deep as the deeper one. -/
theorem nestingAll_append (bs cs : List Branch) :
    nestingAll (bs ++ cs) = max (nestingAll bs) (nestingAll cs) := by
  induction bs with
  | nil => simp
  | cons b bs ih => rw [List.cons_append, nestingAll_cons, nestingAll_cons, ih, Nat.max_assoc]

/-- The order of the branches does not matter. -/
@[simp] theorem nestingAll_reverse (bs : List Branch) : nestingAll bs.reverse = nestingAll bs := by
  induction bs with
  | nil => rfl
  | cons b bs ih =>
      rw [List.reverse_cons, nestingAll_append, ih, nestingAll_cons, nestingAll_cons, nestingAll_nil]
      omega

/-- A directive is nested one deeper than its content. -/
@[simp] theorem nesting_branch (h : Header) (bs : List Branch) :
    (h.branch bs).nesting = nestingAll bs + 1 := by
  cases h <;> rfl

end Branch

namespace Tree

/-! ## The nesting of a tree under construction -/

/-- The nesting of what stands in open directives, the innermost first, around a content of this
nesting. -/
def nestingWithin : Nat → List Frame → Nat
  | n, [] => n
  | n, f :: frames => nestingWithin (max (n + 1) (Branch.nestingAll f.before)) frames

/-- **The nesting of a tree under construction**, as if everything that is open were closed now. -/
def State.nesting (s : State) : Nat := nestingWithin (Branch.nestingAll s.level) s.frames

/-- A content counts at its own depth, and the rest as if there were none. -/
theorem nestingWithin_eq (n : Nat) (frames : List Frame) :
    nestingWithin n frames = max (n + frames.length) (nestingWithin 0 frames) := by
  induction frames generalizing n with
  | nil => simp [nestingWithin]
  | cons f frames ih =>
      rw [nestingWithin, ih, nestingWithin, ih (max (0 + 1) _), List.length_cons]
      omega

/-- What is open counts. -/
theorem length_frames_le (s : State) : s.frames.length ≤ s.nesting := by
  rw [State.nesting, nestingWithin_eq]
  omega

/-- Opening a directive nests as deep as what is then open. -/
theorem nesting_open (f : Frame) (frames : List Frame) :
    (State.mk [] (f :: frames)).nesting =
      max (State.mk f.before frames).nesting (frames.length + 1) := by
  simp only [State.nesting, nestingWithin, Branch.nestingAll_nil]
  rw [nestingWithin_eq, nestingWithin_eq (Branch.nestingAll f.before)]
  omega

/-- Closing a directive leaves the nesting as it is. -/
theorem nesting_close (level : List Branch) (f : Frame) (frames : List Frame) :
    (State.mk (f.header.branch level.reverse :: f.before) frames).nesting =
      (State.mk level (f :: frames)).nesting := by
  simp only [State.nesting, nestingWithin, Branch.nestingAll_cons, Branch.nesting_branch,
    Branch.nestingAll_reverse]

/-- Adding a text leaves the nesting as it is. -/
theorem nesting_add_text (s : State) (segments : List Segment) :
    (s.add (.text segments)).nesting = s.nesting := by
  simp [State.nesting, State.add, Branch.nesting]

variable {s s' : State} {t : Token} {ts : List Token} {d : Nat}

/-- A known directive that is taken is opened one deeper. -/
theorem length_frames_of_opening {offset : Int} {name arguments : String}
    (h : s.take none (.opening offset name arguments) = .ok s') :
    s'.frames.length = s.frames.length + 1 := by
  rw [State.take, opened_none] at h
  obtain ⟨hd, -, hs⟩ := bind_eq_ok_iff.mp h
  cases hs
  rfl

/-- **What one token does to the nesting**: it becomes the number of open directives, if that is more. -/
theorem nesting_of_take (h : s.take none t = .ok s') :
    s'.nesting = max s.nesting s'.frames.length := by
  cases t with
  | text offset content =>
      obtain ⟨segments, -, hs⟩ := bind_eq_ok_iff.mp h
      cases hs
      have hle := length_frames_le s
      rw [nesting_add_text]
      exact (Nat.max_eq_left hle).symm
  | opening offset name arguments =>
      rw [State.take, opened_none] at h
      obtain ⟨hd, -, hs⟩ := bind_eq_ok_iff.mp h
      cases hs
      exact nesting_open _ _
  | closing offset name =>
      obtain ⟨level, frames⟩ := s
      cases frames with
      | nil => cases h
      | cons f frames =>
          simp only [State.take, State.closed] at h
          by_cases hname : f.header.directive = name
          · rw [if_pos hname] at h
            cases h
            have hle := length_frames_le (State.mk level (f :: frames))
            rw [nesting_close]
            simp only [List.length_cons] at hle ⊢
            omega
          · rw [if_neg hname] at h
            cases h

/-! ## Runs under a limit -/

/-- Under a limit the stack keeps to it. -/
theorem length_frames_of_take (h : s.take (some (d : Int)) t = .ok s') (hs : s.frames.length ≤ d) :
    s'.frames.length ≤ d := by
  cases t with
  | text offset content =>
      obtain ⟨segments, -, hadd⟩ := bind_eq_ok_iff.mp h
      cases hadd
      exact hs
  | opening offset name arguments =>
      -- a directive that is opened at the limit would be refused
      have hlength := length_frames_of_opening (take_none_of_take h)
      by_contra hdeep
      have hdepth : (d : Int) < (s.frames.length : Int) + 1 := by omega
      rw [State.take, State.opened, Option.any_some, if_pos (decide_eq_true hdepth)] at h
      split at h <;> cases h
  | closing offset name =>
      obtain ⟨level, frames⟩ := s
      cases frames with
      | nil => cases h
      | cons f frames =>
          simp only [State.take, State.closed] at h
          split at h
          · cases h
            exact Nat.le_trans (Nat.le_succ _) hs
          · cases h

/-- **One token under a limit** is taken iff it is taken without one, and what is built with it is not
nested deeper. -/
theorem take_limited_iff (hs : s.nesting ≤ d) :
    s.take (some (d : Int)) t = .ok s' ↔ s.take none t = .ok s' ∧ s'.nesting ≤ d := by
  have hframes := Nat.le_trans (length_frames_le s) hs
  constructor
  · intro h
    have hnone := take_none_of_take h
    have hlength := length_frames_of_take h hframes
    rw [nesting_of_take hnone]
    exact ⟨hnone, Nat.max_le.mpr ⟨hs, hlength⟩⟩
  · rintro ⟨h, hnesting⟩
    rcases take_eq_or_tooDeep (some (d : Int)) s t with
      heq | ⟨depth, offset, name, arguments, hdepth, hdeep, rfl, -, -⟩
    · rw [heq, h]
    · -- a directive that is opened at the limit nests deeper
      obtain rfl := Option.some.inj hdepth
      have hlength := length_frames_of_opening h
      have hle := length_frames_le s'
      omega

/-- What the stack builds is nested deeper and deeper. -/
theorem nesting_le_of_run (h : ts.foldlM (State.take none) s = .ok s') : s.nesting ≤ s'.nesting := by
  induction ts generalizing s with
  | nil =>
      cases h
      exact Nat.le_refl _
  | cons t ts ih =>
      rw [List.foldlM_cons] at h
      obtain ⟨u, ht, hts⟩ := bind_eq_ok_iff.mp h
      have hfirst : s.nesting ≤ u.nesting := by
        rw [nesting_of_take ht]
        exact Nat.le_max_left _ _
      exact Nat.le_trans hfirst (ih hts)

/-- **A row of tokens under a limit** is taken iff it is taken without one, and what is built is not
nested deeper. -/
theorem run_limited_iff (hs : s.nesting ≤ d) :
    ts.foldlM (State.take (some (d : Int))) s = .ok s' ↔
      ts.foldlM (State.take none) s = .ok s' ∧ s'.nesting ≤ d := by
  induction ts generalizing s with
  | nil =>
      constructor
      · intro h
        cases h
        exact ⟨rfl, hs⟩
      · exact And.left
  | cons t ts ih =>
      rw [List.foldlM_cons, List.foldlM_cons, bind_eq_ok_iff, bind_eq_ok_iff]
      constructor
      · rintro ⟨u, ht, hts⟩
        obtain ⟨ht, hu⟩ := (take_limited_iff hs).mp ht
        obtain ⟨hts, hs'⟩ := (ih hu).mp hts
        exact ⟨⟨u, ht, hts⟩, hs'⟩
      · rintro ⟨⟨u, ht, hts⟩, hs'⟩
        -- what is built later is nested deeper, so that the limit holds here, too
        have hu := Nat.le_trans (nesting_le_of_run hts) hs'
        exact ⟨u, (take_limited_iff hs).mpr ⟨ht, hu⟩, (ih hu).mpr ⟨hts, hs'⟩⟩

/-- **Building under a limit** succeeds iff building without one does, and the tree is not nested
deeper. -/
theorem build_limited_iff {tree : List Branch} :
    build ts (some (d : Int)) = .ok tree ↔
      build ts none = .ok tree ∧ Branch.nestingAll tree ≤ d := by
  have hstart : State.start.nesting ≤ d := Nat.zero_le d
  have hfinish : ∀ s : State, s.finish = .ok tree → s.nesting = Branch.nestingAll tree := by
    rintro ⟨level, frames⟩ h
    cases frames with
    | cons f frames => cases h
    | nil =>
        cases h
        simp [State.nesting, nestingWithin]
  rw [build, build, bind_eq_ok_iff, bind_eq_ok_iff]
  constructor
  · rintro ⟨s, hrun, hs⟩
    obtain ⟨hrun, hnesting⟩ := (run_limited_iff hstart).mp hrun
    rw [hfinish s hs] at hnesting
    exact ⟨⟨s, hrun, hs⟩, hnesting⟩
  · rintro ⟨⟨s, hrun, hs⟩, hnesting⟩
    rw [← hfinish s hs] at hnesting
    exact ⟨s, (run_limited_iff hstart).mpr ⟨hrun, hnesting⟩, hs⟩

/-! ## The marker that exceeds a limit -/

/-- Whether a token, behind a row of tokens that can begin a forest, **opens a known directive below a
depth**: as many directives are open there already. Nothing is said of its arguments. -/
def OpensBelow (d : Nat) (read : List Token) (t : Token) (offset : Int) : Prop :=
  ∃ opens name arguments, Pending read opens ∧ opens.length = d ∧
    t = .opening offset name arguments ∧ (name = "if" ∨ name = "each")

/-- Whether no token of a row opens a known directive below a depth. -/
def Shallow (d : Nat) (ts : List Token) : Prop :=
  ∀ read t rest offset, ts = read ++ t :: rest → ¬ OpensBelow d read t offset

/-- The front of a row that is nowhere too deep is nowhere too deep. -/
theorem Shallow.of_append {us : List Token} (h : Shallow d (ts ++ us)) : Shallow d ts := by
  rintro read t rest offset rfl
  refine h read t (rest ++ us) offset ?_
  simp

/-- A token that opens no known directive below the limit is taken as without a limit. -/
theorem take_of_not_opensBelow {read : List Token}
    (hrun : read.foldlM (State.take none) .start = .ok s) (hs : s.frames.length ≤ d)
    (h : ∀ offset, ¬ OpensBelow d read t offset) :
    s.take (some (d : Int)) t = s.take none t := by
  rcases take_eq_or_tooDeep (some (d : Int)) s t with
    heq | ⟨depth, offset, name, arguments, hdepth, hdeep, ht, hname, -⟩
  · exact heq
  · obtain rfl := Option.some.inj hdepth
    have hlength : s.frames.length = d := by omega
    refine absurd ⟨s.opens, name, arguments, pending_iff_run.mpr ⟨s, hrun, rfl⟩, ?_, ht, hname⟩
      (h offset)
    rw [State.opens, List.length_map, hlength]

/-- **The tokens before the limit is exceeded** are taken as without a limit. The induction takes off
the last token, since the one that exceeds the limit is told by all that stands before it. -/
theorem run_of_shallow (h : Shallow d ts) (hrun : ts.foldlM (State.take none) .start = .ok s) :
    ts.foldlM (State.take (some (d : Int))) .start = .ok s ∧ s.frames.length ≤ d := by
  induction ts using List.reverseRecOn generalizing s with
  | nil =>
      cases hrun
      exact ⟨rfl, Nat.zero_le d⟩
  | append_singleton ts t ih =>
      rw [List.foldlM_append] at hrun ⊢
      obtain ⟨u, hts, hlast⟩ := bind_eq_ok_iff.mp hrun
      obtain ⟨hlimited, hu⟩ := ih h.of_append hts
      rw [List.foldlM_cons] at hlast
      obtain ⟨s', ht, hnil⟩ := bind_eq_ok_iff.mp hlast
      cases hnil
      have heq := take_of_not_opensBelow hts hu fun offset => h ts t [] offset rfl
      rw [ht] at heq
      refine ⟨?_, length_frames_of_take heq hu⟩
      rw [hlimited, ok_bind, List.foldlM_cons, heq]
      rfl

/-- A row of tokens that is nowhere too deep is **built as without a limit**. -/
theorem build_of_shallow (h : Shallow d ts) : build ts (some (d : Int)) = build ts none := by
  have hruns : ts.foldlM (State.take (some (d : Int))) .start = ts.foldlM (State.take none) .start := by
    cases hrun : ts.foldlM (State.take none) .start with
    | ok s => exact (run_of_shallow h hrun).1
    | error e =>
        -- the first token that fails is not too deep either, and so fails in the same way
        obtain ⟨read, t, rest, s, rfl, hread, ht⟩ := foldlM_eq_error_iff.mp hrun
        obtain ⟨hlimited, hs⟩ := run_of_shallow h.of_append hread
        have heq := take_of_not_opensBelow hread hs fun offset => h read t rest offset rfl
        exact foldlM_eq_error_iff.mpr ⟨read, t, rest, s, rfl, hlimited, heq.trans ht⟩
  rw [build, build, hruns]

/-- **The first token that is too deep** is reported. -/
theorem build_of_opensBelow {read rest : List Token} {offset : Int} (h : OpensBelow d read t offset)
    (hread : Shallow d read) :
    build (read ++ t :: rest) (some (d : Int)) = .error (.tooDeep d (some offset)) := by
  obtain ⟨opens, name, arguments, hpending, hlength, rfl, hname⟩ := h
  obtain ⟨s, hrun, rfl⟩ := pending_iff_run.mp hpending
  have hdepth : (d : Int) < (s.frames.length : Int) + 1 := by
    rw [State.opens, List.length_map] at hlength
    omega
  have hknown : Header.directives.contains name = true := by
    rcases hname with rfl | rfl <;> decide
  have ht : s.take (some (d : Int)) (.opening offset name arguments)
      = .error (.tooDeep d (some offset)) := by
    rw [State.take, State.opened, if_pos hknown, Option.any_some, if_pos (decide_eq_true hdepth)]
    rfl
  refine bind_eq_error_iff.mpr (Or.inl (foldlM_eq_error_iff.mpr ?_))
  exact ⟨read, _, rest, s, rfl, (run_of_shallow hread hrun).1, ht⟩

/-- **The limit to the depth only filters.** The first opening marker of a known directive that stands in
as many open directives as the limit allows is reported, whatever its arguments, if building does not
fail before it; if there is none, building has the outcome that it has without a limit. So the trees
that are built are those that are built without a limit and are not nested deeper, and a greater limit
builds the same trees, and more. -/
theorem build_limited (ts : List Token) (d : Nat) :
    (∀ read t rest offset, ts = read ++ t :: rest → OpensBelow d read t offset → Shallow d read →
      build ts (some (d : Int)) = .error (.tooDeep d (some offset))) ∧
    (Shallow d ts → build ts (some (d : Int)) = build ts none) ∧
    (∀ tree, build ts (some (d : Int)) = .ok tree ↔
      build ts none = .ok tree ∧ Branch.nestingAll tree ≤ d) ∧
    ∀ (d' : Nat) (tree : List Branch), d ≤ d' → build ts (some (d : Int)) = .ok tree →
      build ts (some (d' : Int)) = .ok tree := by
  refine ⟨?_, build_of_shallow, fun tree => build_limited_iff, fun d' tree hle h => ?_⟩
  · rintro read t rest offset rfl hbelow hread
    exact build_of_opensBelow hbelow hread
  · obtain ⟨hnone, hnesting⟩ := build_limited_iff.mp h
    exact build_limited_iff.mpr ⟨hnone, Nat.le_trans hnesting hle⟩

/-- Two directives, the inner one with arguments that cannot be read. -/
def overloaded : List Token := [.opening 0 "if" "x", .opening 8 "each" "y", .closing 17 "if"]

theorem build_limited_overloaded :
    OpensBelow 1 [.opening 0 "if" "x"] (.opening 8 "each" "y") 8 ∧ Shallow 1 [.opening 0 "if" "x"] ∧
      build overloaded (some 1) = .error (.tooDeep 1 (some 8)) ∧
      build overloaded none = .error (.invalidDirective "each" "y" .iterationForm (some 8)) := by
  have hread : Condition.parse "x" (some 0) = .ok ⟨false, ⟨"x", [.name "x"]⟩, .truthy⟩ := by
    with_unfolding_all rfl
  have hbelow : OpensBelow 1 [.opening 0 "if" "x"] (.opening 8 "each" "y") 8 :=
    ⟨[(0, "if")], "each", "y", .within (.level .empty) (Or.inl ⟨rfl, _, hread⟩) .empty, rfl, rfl,
      Or.inr rfl⟩
  have hshallow : Shallow 1 [.opening 0 "if" "x"] := by
    rintro read t rest offset hsplit ⟨opens, name, arguments, hpending, hlength, -, -⟩
    -- nothing is read before the only token, and so nothing is open
    obtain ⟨hnil, -, -⟩ : read = [] ∧ _ ∧ _ := by
      simpa [List.singleton_eq_append_iff] using hsplit
    obtain ⟨s, hrun, rfl⟩ := pending_iff_run.mp hpending
    rw [hnil] at hrun
    cases hrun
    cases hlength
  refine ⟨hbelow, hshallow, (build_limited overloaded 1).1 _ _ _ _ rfl hbelow hshallow, ?_⟩
  with_unfolding_all rfl

end Tree

end Stencil
