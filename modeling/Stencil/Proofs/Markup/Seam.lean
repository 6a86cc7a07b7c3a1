import Stencil.Markup.Segment
import Stencil.Markup.Token
import Stencil.Proofs.Markup.Closed
import Stencil.Proofs.Result

/-! # Joining texts

What is read from two texts that are written one after the other, when the first of them is closed.

* `seam` puts two rows together; where they meet, two items may become one.
* `Token.scan_append`: the tokens of a joined text are the tokens of both, the later ones shifted, and
  where two runs of text meet they become one.
* `Segment.scan_append` says the same of segments.
* `Token.closed_of_getLast?`: a run of text that ends a closed source is closed itself. -/

namespace Stencil

/-! ## Rows with a seam -/

section Seam

variable {α : Type} {fuse : α → α → Option α}

/-- **Put two rows together.** The last item of the first and the first item of the second become one
if they can be fused. -/
def seam (fuse : α → α → Option α) : List α → List α → List α
  | [], us => us
  | [t], [] => [t]
  | [t], u :: us =>
    match fuse t u with
    | some v => v :: us
    | none => t :: u :: us
  | t :: t' :: ts, us => t :: seam fuse (t' :: ts) us

@[simp] theorem seam_nil_left (us : List α) : seam fuse [] us = us := rfl

@[simp] theorem seam_nil_right (ts : List α) : seam fuse ts [] = ts := by
  induction ts with
  | nil => rfl
  | cons t ts ih =>
      cases ts with
      | nil => rfl
      | cons t' ts => rw [seam, ih]

/-- An item that cannot be fused with what follows it is kept. -/
theorem seam_cons {t : α} (h : ∀ u, fuse t u = none) (ts us : List α) :
    seam fuse (t :: ts) us = t :: seam fuse ts us := by
  cases ts with
  | nil =>
      cases us with
      | nil => rfl
      | cons u us => simp only [seam, h u]
  | cons t' ts => rfl

/-- What stands before an item that cannot be fused with what follows it is kept. -/
theorem seam_append_cons {t : α} (h : ∀ u, fuse t u = none) (xs ts us : List α) :
    seam fuse (xs ++ t :: ts) us = xs ++ t :: seam fuse ts us := by
  induction xs with
  | nil => exact seam_cons h ts us
  | cons x xs ih =>
      -- `seam` looks two items ahead, for the end of the first row
      cases xs with
      | nil =>
          show x :: seam fuse (t :: ts) us = _
          rw [seam_cons h]
          rfl
      | cons y xs =>
          show x :: seam fuse (y :: xs ++ t :: ts) us = _
          rw [ih]
          rfl

/-- What follows an item that cannot be fused with what stands before it is kept. -/
theorem seam_append_right {m : α} (h : ∀ t, fuse t m = none) (ts us vs : List α) :
    seam fuse ts (us ++ m :: vs) = seam fuse ts us ++ m :: vs := by
  induction ts with
  | nil => rfl
  | cons t ts ih =>
      cases ts with
      | nil =>
          cases us with
          | nil => simp only [List.nil_append, seam, h t, List.singleton_append]
          | cons u us =>
              simp only [List.cons_append, seam]
              cases fuse t u <;> rfl
      | cons t' ts =>
          show t :: seam fuse (t' :: ts) (us ++ m :: vs) = _
          rw [ih]
          rfl

/-- Nothing is fused with an item that cannot be fused with what stands before it. -/
theorem seam_eq_append {m : α} (h : ∀ t, fuse t m = none) (ts vs : List α) :
    seam fuse ts (m :: vs) = ts ++ m :: vs := by
  have happ := seam_append_right h ts [] vs
  rw [List.nil_append, seam_nil_right] at happ
  exact happ

/-- **A run of text in two parts**, each an item unless it is empty: the items of both are fused into
that of the whole. -/
theorem seam_run {f g : String → α} (hfuse : ∀ run run', fuse (f run) (g run') = some (f (run ++ run')))
    {run run' : String} (h : run = "" → f run' = g run') :
    (if (run ++ run').isEmpty then [] else [f (run ++ run')]) =
      seam fuse (if run.isEmpty then [] else [f run]) (if run'.isEmpty then [] else [g run']) := by
  by_cases hrun : run = ""
  · subst hrun
    rw [String.empty_append, h rfl]
    rfl
  · have hne : run.isEmpty = false := by simpa using hrun
    have hboth : (run ++ run').isEmpty = false := by simp [hrun]
    rw [hne, hboth]
    by_cases hrun' : run' = ""
    · subst hrun'
      rw [String.append_empty]
      rfl
    · have hne' : run'.isEmpty = false := by simpa using hrun'
      rw [hne']
      simp [seam, hfuse]

/-- A run of text grows at its end. -/
theorem push_append (run run' : String) (c : Char) :
    (run ++ run').push c = run ++ run'.push c := by
  rw [String.push_eq_append, String.push_eq_append, String.append_assoc]

end Seam

/-! ## Tokens -/

namespace Token

/-- Two runs of text become one. -/
def fuse : Token → Token → Option Token
  | .text offset content, .text _ content' => some (.text offset (content ++ content'))
  | _, _ => none

/-- A marker is not fused with what follows it. -/
theorem fuse_ofMarker_left (offset : Int) (body : List Char) (t : Token) :
    fuse (ofMarker offset body) t = none := by
  simp only [ofMarker]
  split <;> rfl

/-- A marker is not fused with what stands before it. -/
theorem fuse_ofMarker_right (offset : Int) (body : List Char) (t : Token) :
    fuse t (ofMarker offset body) = none := by
  simp only [ofMarker]
  split <;> cases t <;> rfl

/-- A run that is not empty is one token. -/
theorem ofRun_of_ne {run : String} (h : run ≠ "") (offset : Nat) :
    ofRun offset run = [.text offset run] := by
  rw [ofRun, if_neg]
  exact fun hempty => h (String.isEmpty_iff.mp hempty)

/-- A run that is read in two parts. -/
theorem ofRun_append {k start start' : Nat} {run run' : String}
    (h : run = "" → start = k + start') :
    ofRun start (run ++ run') = seam fuse (ofRun start run) ((ofRun start' run').map (shift k)) := by
  rw [map_shift_ofRun]
  refine seam_run (fun run run' => rfl) fun hrun => ?_
  rw [h hrun]

open Markup

/-- The tokens of pieces after a run of text and a number of characters: they are moved, and a run at
their front goes on with the earlier one. -/
theorem ofPieces_lead {k start start' p : Nat} {run run' : String} {ps : List Piece}
    (h : run = "" → start = k + start') :
    ofPieces (k + p) start (run ++ run') ps =
      seam fuse (ofRun start run) ((ofPieces p start' run' ps).map (shift k)) := by
  fun_induction ofPieces p start' run' ps generalizing start run with
  | case1 p start' run' => exact ofRun_append h
  | case2 p start' run' inner rest ih =>
      rw [ofPieces, String.append_assoc, Nat.add_assoc, Nat.add_assoc, ← Nat.add_assoc p]
      exact ih h
  | case3 p start' run' c rest hfree ih =>
      rw [ofPieces, push_append, Nat.add_assoc]
      · exact ih h
      · exact hfree
  | case4 p start' run' inner rest next =>
      -- the marker ends the run, so that only the run before it is fused
      rw [ofPieces, List.map_append, List.map_cons, shift_ofMarker,
        seam_append_right (fuse_ofMarker_right _ _), ← ofRun_append h, ← ofPieces_shift, Nat.add_assoc,
        Int.natCast_add]

/-- **The tokens of pieces that follow one another.** The pieces in front do not end with a backslash,
which would look into those behind. -/
theorem ofPieces_append {p start : Nat} {run : String} {ps qs : List Piece}
    (h : run = "" → start = p) (hshut : Shut ps) :
    ofPieces p start run (ps ++ qs) =
      seam fuse (ofPieces p start run ps)
        ((ofPieces 0 0 "" qs).map (shift (p + (ps.flatMap Piece.text).length))) := by
  fun_induction ofPieces p start run ps with
  | case1 p start run =>
      -- the run at the end of the first row goes on in the second
      have hlead : ofPieces (p + 0) start (run ++ "") qs =
          seam fuse (ofRun start run) ((ofPieces 0 0 "" qs).map (shift p)) := ofPieces_lead h
      rw [String.append_empty] at hlead
      exact hlead
  | case2 p start run inner rest ih =>
      have hne : run ++ String.ofList (Piece.siteText inner) = "" →
          start = p + 1 + (Piece.site inner).width := fun hempty => by
        simp [Piece.siteText] at hempty
      rw [List.cons_append, List.cons_append, ofPieces, ih hne hshut.tail.tail, List.flatMap_cons,
        List.flatMap_cons, Piece.width]
      simp only [Piece.text_char, List.length_append, List.length_singleton, Nat.add_assoc]
  | case3 p start run c rest hfree ih =>
      have hne : run.push c = "" → start = p + 1 := fun hempty => absurd hempty String.push_ne_empty
      rw [List.cons_append, ofPieces, ih hne hshut.tail, List.flatMap_cons]
      · simp only [Piece.text_char, List.length_append, List.length_singleton, Nat.add_assoc]
      · exact free_append (.inl hshut) hfree
  | case4 p start run inner rest next ih =>
      rw [List.cons_append, ofPieces, ih (fun _ => rfl) hshut.tail,
        seam_append_cons (fuse_ofMarker_left _ _), List.flatMap_cons]
      simp only [next, Piece.width, List.length_append, Nat.add_assoc]

/-- **The tokens of a joined text.** Behind a closed text the tokens are those of the text behind it,
moved, and where two runs of text meet they become one. -/
theorem scan_append {s : String} (h : Closed s.toList) (t : String) :
    scan (s ++ t) = seam fuse (scan s) ((scan t).map (shift s.toList.length)) := by
  rw [scan, String.toList_append, pieces_append looksAtHead_opensMarker h,
    ofPieces_append (fun _ => rfl) (shut_pieces _ h), flatMap_text_pieces, Nat.zero_add]
  rfl

/-- The run of text that ends the tokens of pieces is closed, if the pieces and the run before them
are: what it loses are backslashes before dollar signs. -/
theorem closed_of_ofPieces {p start : Nat} {run : String} {ps : List Piece}
    (h : Closed (run.toList ++ ps.flatMap Piece.text)) {offset : Int} {content : String}
    (hlast : (ofPieces p start run ps).getLast? = some (.text offset content)) :
    Closed content.toList := by
  fun_induction ofPieces p start run ps with
  | case1 p start run =>
      by_cases hrun : run = ""
      · subst hrun
        cases hlast
      · rw [ofRun_of_ne hrun] at hlast
        cases hlast
        rwa [List.flatMap_nil, List.append_nil] at h
  | case2 p start run inner rest ih =>
      refine ih ?_ hlast
      rw [String.toList_append, String.toList_ofList, List.append_assoc]
      exact h.unescape
  | case3 p start run c rest hfree ih =>
      refine ih ?_ hlast
      rw [String.toList_push, List.append_assoc]
      exact h
  | case4 p start run inner rest next ih =>
      have hrest : Closed (("" : String).toList ++ rest.flatMap Piece.text) := by
        rw [List.flatMap_cons] at h
        exact h.of_append.of_append
      rw [List.getLast?_append, List.getLast?_cons] at hlast
      cases hlater : (ofPieces next next "" rest).getLast? with
      | some t =>
          rw [hlater] at hlast
          exact ih hrest (by rw [hlater]; exact hlast)
      | none =>
          rw [hlater] at hlast
          -- the last token would be the marker
          have hmarker : ofMarker p (inner.drop 1) = .text offset content := Option.some.inj hlast
          have hfuse := fuse_ofMarker_left p (inner.drop 1) (.text 0 "")
          rw [hmarker] at hfuse
          cases hfuse

/-- **The run of text that ends a closed source is closed.** -/
theorem closed_of_getLast? {s : String} (h : Closed s.toList) {offset : Int} {content : String}
    (hlast : (scan s).getLast? = some (.text offset content)) : Closed content.toList := by
  refine closed_of_ofPieces ?_ hlast
  rw [flatMap_text_pieces]
  exact h

end Token

/-! ## Segments -/

namespace Segment

/-- Two literal runs become one. -/
def fuse : Segment → Segment → Option Segment
  | .literal s, .literal t => some (.literal (s ++ t))
  | _, _ => none

/-- A run that is read in two parts. -/
theorem ofRun_append (run run' : String) :
    ofRun (run ++ run') = seam fuse (ofRun run) (ofRun run') :=
  seam_run (fun _ _ => rfl) fun _ => rfl

/-- A placeholder is not fused with what follows it. -/
theorem fuse_placeholder_left (path : Path) (raw : String) (s : Segment) :
    fuse (.placeholder path raw) s = none := rfl

/-- A placeholder is not fused with what stands before it. -/
theorem fuse_placeholder_right (path : Path) (raw : String) (s : Segment) :
    fuse s (.placeholder path raw) = none := by
  cases s <;> rfl

open Markup

/-- A site that is a path is a placeholder. -/
theorem ofPieces_site_of_ok {inner : List Char} {path : Path}
    (h : Path.parse (String.ofList inner) = .ok path) (run : String) (rest : List Piece) :
    ofPieces run (.site inner :: rest) =
      (fun later => ofRun run ++ .placeholder path (String.ofList (Piece.siteText inner)) :: later) <$>
        ofPieces "" rest := by
  rw [ofPieces]
  simp only [h]
  rfl

/-- A site that is no path is literal. -/
theorem ofPieces_site_of_malformed {inner : List Char} {text : String} {fault : PathFault}
    (h : Path.parse (String.ofList inner) = .error (.malformed text fault)) (run : String)
    (rest : List Piece) :
    ofPieces run (.site inner :: rest) =
      ofPieces (run ++ String.ofList (Piece.siteText inner)) rest := by
  rw [ofPieces]
  simp only [h]

/-- A site whose reading is refused. -/
theorem ofPieces_site_of_limit {inner : List Char} {l : Limit}
    (h : Path.parse (String.ofList inner) = .error (.limit l)) (run : String) (rest : List Piece) :
    ofPieces run (.site inner :: rest) = .error l := by
  rw [ofPieces]
  simp only [h]

/-- The segments of pieces after a run: one at their front goes on with it. -/
theorem ofPieces_lead (run run' : String) (ps : List Piece) :
    ofPieces (run ++ run') ps = seam fuse (ofRun run) <$> ofPieces run' ps := by
  fun_induction ofPieces run' ps with
  | case1 run' => exact congrArg Except.ok (ofRun_append run run')
  | case2 run' inner rest ih =>
      rw [ofPieces, String.append_assoc]
      exact ih
  | case3 run' c rest hfree ih =>
      rw [ofPieces, push_append]
      · exact ih
      · exact hfree
  | case4 run' inner rest raw path hpath ih =>
      rw [ofPieces_site_of_ok hpath, ofRun_append]
      cases ofPieces "" rest with
      | error l => rfl
      | ok later =>
          refine congrArg Except.ok ?_
          rw [seam_append_right (fuse_placeholder_right _ _)]
  | case5 run' inner rest raw text fault hpath ih =>
      rw [ofPieces_site_of_malformed hpath, String.append_assoc]
      exact ih
  | case6 run' inner rest l hpath => exact ofPieces_site_of_limit hpath _ _

/-- **The segments of pieces that follow one another.** No backslash at the end of the pieces in front
may escape a site behind it. -/
theorem ofPieces_append {run : String} {ps qs : List Piece}
    (h : Shut ps ∨ ∀ inner rest, qs ≠ .site inner :: rest) :
    ofPieces run (ps ++ qs) = (do
      let before ← ofPieces run ps
      let behind ← ofPieces "" qs
      return seam fuse before behind) := by
  fun_induction ofPieces run ps with
  | case1 run =>
      have hlead := ofPieces_lead run "" qs
      rw [String.append_empty] at hlead
      exact hlead
  | case2 run inner rest ih =>
      rw [List.cons_append, List.cons_append, ofPieces]
      exact ih (h.imp_left fun hshut => hshut.tail.tail)
  | case3 run c rest hfree ih =>
      rw [List.cons_append, ofPieces]
      · exact ih (h.imp_left Shut.tail)
      · exact free_append h hfree
  | case4 run inner rest raw path hpath ih =>
      rw [List.cons_append, ofPieces_site_of_ok hpath, ih (h.imp_left Shut.tail)]
      cases ofPieces "" rest with
      | error l => rfl
      | ok before =>
          cases ofPieces "" qs with
          | error l => rfl
          | ok behind =>
              refine congrArg Except.ok ?_
              rw [seam_append_cons (fuse_placeholder_left _ _)]
  | case5 run inner rest raw text fault hpath ih =>
      rw [List.cons_append, ofPieces_site_of_malformed hpath]
      exact ih (h.imp_left Shut.tail)
  | case6 run inner rest l hpath => exact ofPieces_site_of_limit hpath _ _

/-- **The segments of a joined text.** Behind a closed text the segments are those of the text behind
it, and where two literal runs meet they become one. -/
theorem scan_append {s : String} (h : Closed s.toList) (t : String) :
    scan (s ++ t) = (do
      let before ← scan s
      let behind ← scan t
      return seam fuse before behind) := by
  rw [scan, String.toList_append, pieces_append looksAtHead_opensPlaceholder h,
    ofPieces_append (.inl (shut_pieces _ h))]
  rfl

end Segment

end Stencil
