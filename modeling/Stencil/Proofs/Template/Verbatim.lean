import Stencil.Proofs.Markup.Settled
import Stencil.Proofs.Markup.Tiling
import Stencil.Proofs.Render.Row

/-! # Escaped markers in their text

What becomes of a marker that is escaped: it is read into a run of text, and this run is searched for
placeholders.

* `Token.exists_text_of_escaped`: the run holds the marker as it is written.
* `Segment.between` are the segments of two texts with one segment between them; `scan_eq_between` says
  when scanning gives these.
* `Literal` says that a stretch of a text is in no site and is rendered as it is; `Literal.of_settled`
  says when what ends with a closing brace is literal.
* `Marker.escaped_in_text` puts this together: a marker is literal if no placeholder is open where it
  ends, and otherwise the first one that is open ends with it. -/

namespace Stencil

open Markup

namespace Marker

/-- A marker without its closing brace. -/
def lead (m : Marker) : List Char := '$' :: '\x7b' :: '#' :: m.body

/-- The text of a marker. -/
def text (m : Marker) : List Char := m.lead ++ ['\x7d']

/-- The number of characters of a marker. -/
theorem stop_eq (m : Marker) : m.stop = m.start + m.text.length := by
  simp only [stop, text, lead, List.length_append, List.length_cons, List.length_nil]
  omega

/-- A marker stands in a source where its text does. -/
theorem StandsIn.drop {m : Marker} {s : List Char} (h : m.StandsIn s) :
    ∃ after, s.drop m.start = m.text ++ after := by
  obtain ⟨-, after, hdrop⟩ := h
  refine ⟨after, ?_⟩
  rw [hdrop, text, lead, List.append_assoc]
  rfl

end Marker

/-! ## The run of text that holds a marker -/

section Run

variable {s : List Char} {ms : List Marker} {ts : List Token} {m : Marker}

/-- **A marker is kept as it is**: it holds no other marker, and ends with no backslash. -/
theorem kept_marker (hms : Leftmost s 0 ms) (hm : m ∈ ms) : kept s ms m.start m.stop = m.text := by
  obtain ⟨after, hdrop⟩ := (hms.of_mem hm).2.drop
  rw [m.stop_eq]
  refine kept_eq_of_forall hdrop fun i hi hlt => ?_
  rw [← m.stop_eq] at hlt
  rw [escapes, Bool.and_eq_false_iff]
  rcases Nat.lt_or_ge (i + 1) m.stop with hlt' | hge
  · refine Or.inr (List.any_eq_false.mpr fun n hn hstart => ?_)
    rw [beq_iff_eq] at hstart
    obtain rfl := hms.eq_of_overlap hm hn (by omega) (by omega)
    omega
  · have hlast : s[i]? = some '\x7d' := by
      have hi' : i = m.start + m.lead.length := by
        simp only [Marker.stop, Marker.lead, List.length_cons] at hge hlt ⊢
        omega
      rw [hi', ← List.getElem?_drop, hdrop, Marker.text]
      simp
    exact Or.inl (by rw [hlast]; rfl)

/-- The token of a span is one of the tokens. -/
theorem token_mem_of_mem_spans {n : Nat} {x : Span} (h : x ∈ spans n ts) : x.token ∈ ts := by
  fun_induction spans n ts with
  | case1 => cases h
  | case2 t =>
      obtain rfl := List.mem_singleton.mp h
      exact List.mem_singleton.mpr rfl
  | case3 t u ts ih =>
      rcases List.mem_cons.mp h with rfl | h
      · exact List.mem_cons_self
      · exact List.mem_cons_of_mem _ (ih h)

/-- **The run of text that holds an escaped marker**: before the marker stands what is kept of the
stretch before it, and behind it what is kept of the stretch behind it. -/
theorem Token.exists_text_of_escaped {source : String} (hms : Leftmost source.toList 0 ms) (hm : m ∈ ms)
    (hesc : m.Escaped source.toList) :
    ∃ a b : Nat, a < m.start ∧ m.stop ≤ b ∧
      .text a (String.ofList (kept source.toList ms a m.start ++ m.text ++
        kept source.toList ms m.stop b)) ∈ Token.scan source := by
  have htiles := Token.tiles_scan hms
  obtain ⟨x, hx, hstart, hstop⟩ := htiles.exists_span (hms.of_mem hm).2
  have hcovers := (htiles.covers x hx).2
  have htoken := token_mem_of_mem_spans hx
  cases htext : x.token with
  | text o content =>
      rw [htext] at hcovers htoken
      have hreach : x.start < m.stop := by
        rw [Marker.stop]
        omega
      obtain ⟨-, hlt, hle⟩ := hcovers.escaped rfl m hm hstop hreach
      have hoffset : o = x.start := hcovers.offset
      have hcontent := (hcovers.content o content rfl).2
      have hmid : m.start ≤ m.stop := by
        rw [m.stop_eq]
        exact Nat.le_add_right _ _
      rw [kept_append (Nat.le_trans (Nat.le_of_lt hlt) hmid) hle,
        kept_append (Nat.le_of_lt hlt) hmid, kept_marker hms hm] at hcontent
      refine ⟨x.start, x.stop, hlt, hle, ?_⟩
      rw [← hcontent, String.ofList_toList, ← hoffset]
      exact htoken
  | opening o name arguments =>
      have hnone := hcovers.eq_marker hms hm hstart hstop (by rw [htext]; rfl)
      exact absurd hesc hnone.1
  | closing o name =>
      have hnone := hcovers.eq_marker hms hm hstart hstop (by rw [htext]; rfl)
      exact absurd hesc hnone.1

end Run

/-! ## One segment between two texts -/

namespace Segment

/-- A run that is not empty is one segment. -/
theorem ofRun_of_ne {run : String} (h : run ≠ "") : ofRun run = [.literal run] := by
  rw [ofRun, if_neg]
  exact fun hempty => h (String.isEmpty_iff.mp hempty)

/-- The segments of a run of characters without sites. -/
theorem ofPieces_chars {t : List Char} (h : t ≠ []) :
    ofPieces "" (t.map .char) = .ok [.literal (String.ofList t)] := by
  have hshielded : (t.map Piece.char).flatMap Piece.shielded = t.map .char := by
    rw [List.flatMap_map]
    exact List.map_eq_flatMap.symm
  have htext : (t.map Piece.char).flatMap Piece.text = t := by
    rw [List.flatMap_map]
    exact List.flatMap_singleton' t
  have hne : String.ofList t ≠ "" := fun hempty => h (by simpa using congrArg String.toList hempty)
  have hread := ofPieces_shielded (t.map .char) ""
  rw [hshielded, htext, String.empty_append, ofRun_of_ne hne] at hread
  exact hread

/-- The text of a site is not empty. -/
theorem siteText_ne (inner : List Char) : String.ofList (Piece.siteText inner) ≠ "" := by
  simp [Piece.siteText]

/-- The **segment of a site** that is not escaped: a placeholder, if it is a path. -/
def ofSite (inner : List Char) : Except Limit Segment :=
  match Path.parse (String.ofList inner) with
  | .ok path => .ok (.placeholder path (String.ofList (Piece.siteText inner)))
  | .error (.malformed _ _) => .ok (.literal (String.ofList (Piece.siteText inner)))
  | .error (.limit l) => .error l

/-- A site that is not escaped has one segment. -/
theorem ofPieces_site (inner : List Char) :
    ofPieces "" [.site inner] = (fun s => [s]) <$> ofSite inner := by
  rw [ofSite]
  cases hpath : Path.parse (String.ofList inner) with
  | ok path =>
      rw [ofPieces_site_of_ok hpath]
      rfl
  | error fault =>
      cases fault with
      | malformed text fault =>
          rw [ofPieces_site_of_malformed hpath, ofPieces, String.empty_append,
            ofRun_of_ne (siteText_ne inner)]
          rfl
      | limit l =>
          rw [ofPieces_site_of_limit hpath]
          rfl

/-- A site that is escaped is literal. -/
theorem ofPieces_escaped (inner : List Char) :
    ofPieces "" [.char '\\', .site inner] = .ok [.literal (String.ofList (Piece.siteText inner))] := by
  rw [ofPieces, ofPieces, String.empty_append, ofRun_of_ne (siteText_ne inner)]

/-- The segments of two texts, with **one segment between** them. Where literal runs meet they become
one. -/
def between (before after : List Char) (here : Except Limit Segment) : Except Limit (List Segment) := do
  let front ← scan (String.ofList before)
  let segment ← here
  let back ← scan (String.ofList after)
  return seam fuse front (seam fuse [segment] back)

/-- **Pieces between those of two texts** that are one segment. No backslash before them may escape
the first of them, and they do not end with one. -/
theorem scan_eq_between {s before after : List Char} {qs : List Piece} {here : Except Limit Segment}
    (h : pieces opensPlaceholder s =
      pieces opensPlaceholder before ++ (qs ++ pieces opensPlaceholder after))
    (hbefore : Shut (pieces opensPlaceholder before) ∨
      ∀ inner rest, qs ++ pieces opensPlaceholder after ≠ .site inner :: rest)
    (hqs : Shut qs) (hhere : ofPieces "" qs = (fun segment => [segment]) <$> here) :
    scan (String.ofList s) = between before after here := by
  rw [scan, String.toList_ofList, h, ofPieces_append hbefore, ofPieces_append (.inl hqs), hhere, between,
    scan, scan, String.toList_ofList, String.toList_ofList]
  cases ofPieces "" (pieces opensPlaceholder before) with
  | error l => rfl
  | ok front =>
      cases here with
      | error l => rfl
      | ok segment =>
          cases ofPieces "" (pieces opensPlaceholder after) <;> rfl

end Segment

/-! ## Literal stretches -/

/-- Whether a stretch of a text is **literal** between what stands before it and behind it. -/
structure Literal (before mid after : List Char) : Prop where
  /-- Each of its characters is a piece, which is in no site. -/
  apart : pieces opensPlaceholder (before ++ mid ++ after) =
    pieces opensPlaceholder before ++ (mid.map .char ++ pieces opensPlaceholder after)
  /-- The placeholders of the text are those before it and those behind it. -/
  segments : Segment.scan (String.ofList (before ++ mid ++ after)) =
    Segment.between before after (.ok (.literal (String.ofList mid)))
  /-- Whenever the text is rendered, the output holds the stretch as it is, between what is rendered
  before it and behind it. -/
  output : ∀ limit scope segments a out b,
    Segment.scan (String.ofList (before ++ mid ++ after)) = .ok segments →
    (Segment.renderAll limit scope segments).run a = (.ok out, b) →
    ∃ front back x y, Segment.scan (String.ofList before) = .ok front ∧
      Segment.scan (String.ofList after) = .ok back ∧
      (Segment.renderAll none scope front).outcome = .ok x ∧
      (Segment.renderAll none scope back).outcome = .ok y ∧ out = x ++ String.ofList mid ++ y

/-- A text is rendered with a literal segment between two texts as this segment between what is
rendered of both. -/
theorem Segment.run_renderAll_between {before after : List Char} {mid out : String}
    {limit : Option Int} {scope : Value} {segments : List Segment} {a b : Account}
    (hscan : between before after (.ok (.literal mid)) = .ok segments)
    (hrun : (Segment.renderAll limit scope segments).run a = (.ok out, b)) :
    ∃ front back x y, scan (String.ofList before) = .ok front ∧ scan (String.ofList after) = .ok back ∧
      (Segment.renderAll none scope front).outcome = .ok x ∧
      (Segment.renderAll none scope back).outcome = .ok y ∧ out = x ++ mid ++ y := by
  obtain ⟨front, hfront, hrest⟩ := bind_eq_ok_iff.mp hscan
  rw [ok_bind] at hrest
  obtain ⟨back, hback, hseam⟩ := bind_eq_ok_iff.mp hrest
  rw [← Except.ok.inj hseam] at hrun
  obtain ⟨x, y, hx, hy, hout⟩ := run_renderAll_seam hrun
  exact ⟨front, back, x, y, hfront, hback, hx, hy, hout⟩

/-- **A stretch that ends with a closing brace is literal** if it does not begin with an opening brace,
has no other closing brace, and no placeholder is open where it ends. -/
theorem Literal.of_settled {before lead : List Char} (hopen : '\x7d' ∉ lead)
    (hhead : lead.head? ≠ some '\x7b') (h : Settled opensPlaceholder (before ++ lead))
    (after : List Char) : Literal before (lead ++ ['\x7d']) after := by
  have hapart : pieces opensPlaceholder (before ++ (lead ++ ['\x7d']) ++ after) =
      pieces opensPlaceholder before ++
        ((lead ++ ['\x7d']).map .char ++ pieces opensPlaceholder after) := by
    rw [pieces_append looksAtHead_opensPlaceholder (Closed.append_brace before lead),
      pieces_append_settled seesNumberSign_opensPlaceholder hopen hhead h, List.append_assoc]
  have hnext : ∀ inner rest, (lead ++ ['\x7d']).map Piece.char ++ pieces opensPlaceholder after ≠
      .site inner :: rest := by
    intro inner rest hsite
    cases lead <;> cases hsite
  have hshut : Shut ((lead ++ ['\x7d']).map Piece.char) := by
    rw [Shut, List.map_append]
    simp
  have hscan : Segment.scan (String.ofList (before ++ (lead ++ ['\x7d']) ++ after)) =
      Segment.between before after (.ok (.literal (String.ofList (lead ++ ['\x7d'])))) :=
    Segment.scan_eq_between hapart (.inr hnext) hshut (Segment.ofPieces_chars (by simp))
  refine ⟨hapart, hscan, fun limit scope segments a out b hsegments hrun => ?_⟩
  rw [hscan] at hsegments
  exact Segment.run_renderAll_between hsegments hrun

/-! ## Escaped markers -/

/-- **What becomes of an escaped marker.** It is read into a run of text, as it is written and without
its backslash. If no placeholder is open where it ends, it is literal there. Otherwise its closing brace
is that of the first site that is open: this site is literal if it is escaped, and else a placeholder if
it is a path. -/
theorem Marker.escaped_in_text {source : String} {ms : List Marker} {m : Marker}
    (hms : Leftmost source.toList 0 ms) (hm : m ∈ ms) (hesc : m.Escaped source.toList) :
    ∃ a b : Nat, ∃ before after : List Char, a < m.start ∧ m.stop ≤ b ∧
      before = kept source.toList ms a m.start ∧ after = kept source.toList ms m.stop b ∧
      .text a (String.ofList (before ++ m.text ++ after)) ∈ Token.scan source ∧
      (Settled opensPlaceholder (before ++ m.lead) → Literal before m.text after) ∧
      (¬ Settled opensPlaceholder (before ++ m.lead) → ∃ front inner : List Char,
        before ++ m.text = front ++ Piece.siteText inner ∧
        pieces opensPlaceholder (before ++ m.text ++ after) =
          pieces opensPlaceholder front ++ ([.site inner] ++ pieces opensPlaceholder after) ∧
        (front.getLast? ≠ some '\\' →
          Segment.scan (String.ofList (before ++ m.text ++ after)) =
            Segment.between front after (Segment.ofSite inner)) ∧
        ∀ first, front = first ++ ['\\'] →
          Segment.scan (String.ofList (before ++ m.text ++ after)) =
            Segment.between first after (.ok (.literal (String.ofList (Piece.siteText inner))))) := by
  have hopen : '\x7d' ∉ m.lead := by
    have hbody := (hms.of_mem hm).2.1
    simp [Marker.lead, hbody]
  have hhead : m.lead.head? ≠ some '\x7b' := by
    simp [Marker.lead]
  obtain ⟨a, b, ha, hb, htoken⟩ := Token.exists_text_of_escaped hms hm hesc
  refine ⟨a, b, _, _, ha, hb, rfl, rfl, htoken, fun h => Literal.of_settled hopen hhead h _,
    fun h => ?_⟩
  generalize kept source.toList ms a m.start = before at h
  generalize kept source.toList ms m.stop b = after
  obtain ⟨front, inner, hsplit, hpieces⟩ := exists_site_of_not_settled seesNumberSign_opensPlaceholder h
  have htext : before ++ m.text = front ++ Piece.siteText inner := by
    rw [Marker.text, ← List.append_assoc, hsplit, List.append_assoc]
    rfl
  have hcut : pieces opensPlaceholder (before ++ m.text ++ after) =
      pieces opensPlaceholder front ++ ([.site inner] ++ pieces opensPlaceholder after) := by
    rw [Marker.text, pieces_append looksAtHead_opensPlaceholder (Closed.append_brace before m.lead),
      ← List.append_assoc, hpieces, List.append_assoc]
  have hshut : Shut [Piece.char '\\', .site inner] := by
    simp [Shut]
  refine ⟨front, inner, htext, hcut, fun hlast => ?_, ?_⟩
  · exact Segment.scan_eq_between hcut (.inl (shut_pieces_of_getLast? _ hlast)) hshut.tail
      (Segment.ofPieces_site inner)
  · rintro first rfl
    -- the backslash is taken together with the site behind it
    have hpair : pieces opensPlaceholder (before ++ m.text ++ after) = pieces opensPlaceholder first ++
        ([.char '\\', .site inner] ++ pieces opensPlaceholder after) := by
      rw [hcut, pieces_concat_backslash seesNumberSign_opensPlaceholder, List.append_assoc]
      rfl
    refine Segment.scan_eq_between hpair (.inr fun inner' rest hsite => ?_) hshut
      (Segment.ofPieces_escaped inner)
    cases hsite

/-- A marker between two placeholders, each of which is closed on its own side. -/
theorem Marker.escaped_in_text_between :
    Leftmost "$\x7ba\x7d\\$\x7b#b\x7d$\x7bc\x7d".toList 0 [⟨5, "b".toList⟩] ∧
    (Marker.mk 5 "b".toList).Escaped "$\x7ba\x7d\\$\x7b#b\x7d$\x7bc\x7d".toList ∧
    ∃ a before after, .text a (String.ofList (before ++ "$\x7b#b\x7d".toList ++ after)) ∈
      Token.scan "$\x7ba\x7d\\$\x7b#b\x7d$\x7bc\x7d" ∧
      Literal before "$\x7b#b\x7d".toList after := by
  have hms := leftmost_markersFrom "$\x7ba\x7d\\$\x7b#b\x7d$\x7bc\x7d".toList 0
  have hmarkers : markersFrom 0 (pieces opensMarker
      ("$\x7ba\x7d\\$\x7b#b\x7d$\x7bc\x7d".toList.drop 0)) = [⟨5, "b".toList⟩] := by
    with_unfolding_all rfl
  rw [hmarkers] at hms
  have hesc : (Marker.mk 5 "b".toList).Escaped "$\x7ba\x7d\\$\x7b#b\x7d$\x7bc\x7d".toList :=
    ⟨4, rfl, by decide⟩
  refine ⟨hms, hesc, ?_⟩
  obtain ⟨a, b, before, after, -, -, rfl, -, htoken, hliteral, -⟩ :=
    Marker.escaped_in_text hms List.mem_cons_self hesc
  refine ⟨a, _, _, htoken, hliteral ?_⟩
  -- there is one token, which stands at the beginning
  have hscan : Token.scan "$\x7ba\x7d\\$\x7b#b\x7d$\x7bc\x7d" =
      [.text 0 "$\x7ba\x7d$\x7b#b\x7d$\x7bc\x7d"] := by with_unfolding_all rfl
  rw [hscan, List.mem_singleton] at htoken
  obtain rfl : a = 0 := Int.ofNat_inj.mp (Token.text.inj htoken).1
  have hbefore : kept "$\x7ba\x7d\\$\x7b#b\x7d$\x7bc\x7d".toList [⟨5, "b".toList⟩] 0 5 =
      "$\x7ba\x7d".toList := by decide
  rw [hbefore]
  exact (settled_iff seesNumberSign_opensPlaceholder).mpr (by with_unfolding_all rfl)

/-- A placeholder that is opened in the body of an escaped marker ends with it, and so the marker is not
shown as it is written. -/
theorem Marker.escaped_reread :
    Leftmost "\\$\x7b#a $\x7bx\x7d".toList 0 [⟨1, "a $\x7bx".toList⟩] ∧
    (Marker.mk 1 "a $\x7bx".toList).Escaped "\\$\x7b#a $\x7bx\x7d".toList ∧
    Token.scan "\\$\x7b#a $\x7bx\x7d" = [.text 0 "$\x7b#a $\x7bx\x7d"] ∧
    Segment.scan "$\x7b#a $\x7bx\x7d" =
      .ok [.literal "$\x7b#a ", .placeholder ⟨"x", [.name "x"]⟩ "$\x7bx\x7d"] ∧
    ∃ w, Template.compile "\\$\x7b#a $\x7bx\x7d" {} = .ok w ∧
      ((w.render (.map [(.text "x", .text "1")])).run .start).1 = .ok "$\x7b#a 1" ∧
      ¬ "$\x7b#a $\x7bx\x7d".toList <:+: "$\x7b#a 1".toList := by
  have hms := leftmost_markersFrom "\\$\x7b#a $\x7bx\x7d".toList 0
  have hmarkers : markersFrom 0 (pieces opensMarker
      ("\\$\x7b#a $\x7bx\x7d".toList.drop 0)) = [⟨1, "a $\x7bx".toList⟩] := by
    with_unfolding_all rfl
  rw [hmarkers] at hms
  refine ⟨hms, ⟨0, rfl, by decide⟩, by with_unfolding_all rfl, by with_unfolding_all rfl,
    ⟨[.text [.literal "$\x7b#a ", .placeholder ⟨"x", [.name "x"]⟩ "$\x7bx\x7d"]],
      "\\$\x7b#a $\x7bx\x7d", none⟩, ?_, ?_, ?_⟩
  · with_unfolding_all rfl
  · with_unfolding_all rfl
  · decide

end Stencil
