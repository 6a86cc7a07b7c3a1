import Stencil.Proofs.Markup.Escape
import Stencil.Proofs.Markup.Seam
import Stencil.Proofs.Markup.Tiling

/-! # Printing tokens

Tokens can be written as a source, and scanning undoes it.

* `Token.print` writes tokens one after another, and `Token.renumber` gives them the offsets at which
  they are written.
* `Canonical` names the rows of tokens that can be read off what is printed for them.
* `Token.scan_print`: scanning what is printed for a canonical row gives this row, and the tokens of
  every source, renumbered, are such a row. -/

namespace Stencil

open Markup

namespace Token

/-! ## Printing -/

/-- The text of a **marker with a name and arguments**. One blank stands before the arguments, if there
are any. -/
def markerText (name arguments : List Char) : List Char :=
  Piece.siteText ('#' :: (name ++ if arguments = [] then [] else ' ' :: arguments))

/-- **How a token is written**: a text with its markers escaped, and a marker with its name and
arguments. -/
def written : Token → List Char
  | .text _ content => escape opensMarker content.toList
  | .opening _ name arguments => markerText name.toList arguments.toList
  | .closing _ name => markerText ['e', 'n', 'd'] name.toList

/-- **Print tokens**, one after another. -/
def print (ts : List Token) : String := String.ofList (ts.flatMap written)

/-- A token at another offset. -/
def place (offset : Int) : Token → Token
  | .text _ content => .text offset content
  | .opening _ name arguments => .opening offset name arguments
  | .closing _ name => .closing offset name

/-- Tokens at the offsets at which they are printed from a position on. -/
def placeFrom (position : Nat) : List Token → List Token
  | [] => []
  | t :: ts => t.place position :: placeFrom (position + t.written.length) ts

/-- **Renumber tokens**: give each of them the offset at which it is printed. -/
def renumber (ts : List Token) : List Token := placeFrom 0 ts

@[simp] theorem written_place (offset : Int) (t : Token) : (t.place offset).written = t.written := by
  cases t <;> rfl

@[simp] theorem isText_place (offset : Int) (t : Token) : (t.place offset).isText = t.isText := by
  cases t <;> rfl

@[simp] theorem offset_place (offset : Int) (t : Token) : (t.place offset).offset = offset := by
  cases t <;> rfl

/-- A token that stands where it is placed. -/
theorem place_offset (t : Token) : t.place t.offset = t := by
  cases t <;> rfl

end Token

/-! ## Canonical rows -/

namespace Token

/-- Whether a token **can be told from what is written** for it: a text is not empty; the name of an
opening marker is one word, other than the one that closes directives, and without it there are no
arguments; arguments are trimmed, and no marker holds a closing brace. -/
def Printable : Token → Prop
  | .text _ content => content ≠ ""
  | .opening _ name arguments =>
      (∀ c ∈ name.toList, Text.isBlank c = false ∧ c ≠ '\x7d') ∧ name ≠ "end" ∧
        (name = "" → arguments = "") ∧ Text.Bare arguments.toList ∧ '\x7d' ∉ arguments.toList
  | .closing _ name => Text.Bare name.toList ∧ '\x7d' ∉ name.toList

/-- Whether a token **can stand before another one**: behind a text stands a marker, which the text
neither escapes nor takes into a marker of its own. -/
def MayPrecede : Token → Token → Prop
  | .text _ content, u =>
      u.isText = false ∧ content.toList.getLast? ≠ some '\\' ∧ Settled opensMarker content.toList
  | _, _ => True

/-- Whether each of a row of tokens has the **offset at which it is printed** from a position on. -/
def Placed (position : Nat) (ts : List Token) : Prop :=
  ∀ (before : List Token) (t : Token) (after : List Token), ts = before ++ t :: after →
    t.offset = position + (print before).length

end Token

/-- **Canonical rows of tokens.** -/
structure Canonical (ts : List Token) : Prop where
  /-- Every token can be told from what is written for it. -/
  printable : ∀ t ∈ ts, t.Printable
  /-- Neighbours can be told apart. -/
  apart : ts.IsChain Token.MayPrecede
  /-- The offset of each token is the printed length of everything before it. -/
  placed : Token.Placed 0 ts

namespace Token

variable {t : Token} {ts : List Token} {p : Nat}

/-! ## Offsets -/

/-- The first token stands at the position. -/
theorem Placed.head (h : Placed p (t :: ts)) : t.offset = p := by
  have hhead := h [] t ts rfl
  simpa [print] using hhead

/-- The tokens behind the first stand behind what is written for it. -/
theorem Placed.tail (h : Placed p (t :: ts)) : Placed (p + t.written.length) ts := by
  rintro before u after rfl
  have htail := h (t :: before) u after rfl
  rw [htail]
  simp [print, Int.add_assoc]

/-- Tokens that stand where they are printed are left there. -/
theorem Placed.placeFrom_eq (h : Placed p ts) : placeFrom p ts = ts := by
  induction ts generalizing p with
  | nil => rfl
  | cons t ts ih => rw [placeFrom, ih h.tail, ← h.head, place_offset]

/-- Tokens stand where they are placed. -/
theorem placed_placeFrom (p : Nat) (ts : List Token) : Placed p (placeFrom p ts) := by
  intro before t after hsplit
  induction ts generalizing p before with
  | nil => simp [placeFrom] at hsplit
  | cons u ts ih =>
      cases before with
      | nil =>
          obtain ⟨rfl, -⟩ := List.cons.inj hsplit
          simp [print]
      | cons v before =>
          obtain ⟨rfl, hlater⟩ := List.cons.inj hsplit
          rw [ih _ _ hlater]
          simp [print, Int.add_assoc]

/-! ## Scanning what is printed -/

/-- The token of a marker that is written with a name and arguments. -/
theorem ofMarker_written {name arguments : List Char} (hname : ∀ c ∈ name, Text.isBlank c = false)
    (hbare : Text.Bare arguments) (hempty : name = [] → arguments = []) (p : Nat) :
    ofMarker p (name ++ if arguments = [] then [] else ' ' :: arguments) =
      if name = ['e', 'n', 'd'] then .closing p (String.ofList arguments)
      else .opening p (String.ofList name) (String.ofList arguments) := by
  let m : Marker := ⟨p, name ++ if arguments = [] then [] else ' ' :: arguments⟩
  have hsays : m.Says name arguments := by
    refine ⟨[], if arguments = [] then [] else [' '], [], by simp [Text.AllBlank], ?_,
      by simp [Text.AllBlank], hname, hbare, fun hne => ?_, ?_⟩
    · intro c hc
      split at hc
      · cases hc
      · obtain rfl := List.mem_singleton.mp hc
        decide
    · exact ⟨fun hnil => hne (hempty hnil), by simp [hne]⟩
    · by_cases hnil : arguments = [] <;> simp [m, hnil]
  exact (Marker.means_iff.mp ⟨name, arguments, hsays, rfl⟩).symm

/-- A marker that can be told from what is written for it is written as a site, whose token it is. -/
theorem Printable.exists_site (h : t.Printable) (hmarker : t.isText = false) (p : Nat) :
    ∃ body, '\x7d' ∉ body ∧ t.written = Piece.siteText ('#' :: body) ∧
      ofMarker p body = t.place p := by
  cases t with
  | text offset content => cases hmarker
  | opening offset name arguments =>
      obtain ⟨hname, hend, hempty, hbare, hbrace⟩ := h
      refine ⟨_, ?_, rfl, ?_⟩
      · rw [List.mem_append, not_or]
        refine ⟨fun hmem => (hname _ hmem).2 rfl, ?_⟩
        split <;> simp [hbrace]
      · rw [ofMarker_written (fun c hc => (hname c hc).1) hbare, if_neg, String.ofList_toList,
          String.ofList_toList]
        · rfl
        · intro hnil
          exact hend (String.toList_inj.mp hnil)
        · intro hnil
          rw [hempty (String.toList_eq_nil_iff.mp hnil)]
          rfl
  | closing offset name =>
      obtain ⟨hbare, hbrace⟩ := h
      refine ⟨_, ?_, rfl, ?_⟩
      · rw [List.mem_append, not_or]
        refine ⟨by decide, ?_⟩
        split <;> simp [hbrace]
      · rw [ofMarker_written (by simp [Text.isBlank]) hbare (by simp), if_pos rfl,
          String.ofList_toList]
        rfl

/-- What is written for a marker begins with a dollar sign. -/
theorem head?_written (hmarker : t.isText = false) (s : List Char) :
    (t.written ++ s).head? = some '$' := by
  cases t with
  | text offset content => cases hmarker
  | opening offset name arguments => rfl
  | closing offset name => rfl

/-- Scanning a printed marker, after a run of text. -/
theorem ofPieces_written (h : t.Printable) (hmarker : t.isText = false) (p start : Nat)
    (run : String) (rest : List Char) :
    ofPieces p start run (pieces opensMarker (t.written ++ rest)) =
      ofRun start run ++ t.place p ::
        ofPieces (p + t.written.length) (p + t.written.length) "" (pieces opensMarker rest) := by
  obtain ⟨body, hbody, hwritten, hmeans⟩ := h.exists_site hmarker p
  have hclosed : '\x7d' ∉ '#' :: body := by simpa using hbody
  rw [hwritten, pieces_siteText rfl hclosed, ofPieces, List.drop_one, List.tail_cons, hmeans]
  rfl

/-- What stands behind a printed text can neither be taken for the end of it nor be escaped by it. -/
theorem apart_text {offset : Int} {content : String}
    (h : (Token.text offset content :: ts).IsChain MayPrecede) :
    (∀ c ∈ (ts.flatMap written).head?, c = '$') ∧
      (Settled opensMarker content.toList ∨ '\x7d' ∉ ts.flatMap written) ∧
      (Shut (pieces opensMarker content.toList) ∨
        ∀ inner rest, pieces opensMarker (ts.flatMap written) ≠ .site inner :: rest) := by
  cases ts with
  | nil => simp [pieces]
  | cons u us =>
      obtain ⟨⟨hmarker, hlast, hsettled⟩, -⟩ := List.isChain_cons_cons.mp h
      refine ⟨fun c hc => ?_, Or.inl hsettled, Or.inl (shut_pieces_of_getLast? _ hlast)⟩
      rw [List.flatMap_cons, head?_written hmarker] at hc
      exact (Option.some.inj hc).symm

/-- **Scanning printed tokens**, after a run of text. A text that follows the run would be taken into
it, and so stands there only if the run is empty. -/
theorem ofPieces_print (hts : ∀ t ∈ ts, t.Printable) (hapart : ts.IsChain MayPrecede) {p start : Nat}
    {run : String} (hrun : run ≠ "" → ∀ t ∈ ts.head?, t.isText = false)
    (hstart : run = "" → start = p) :
    ofPieces p start run (pieces opensMarker (ts.flatMap written)) =
      ofRun start run ++ placeFrom p ts := by
  induction ts generalizing p start run with
  | nil => simp [pieces, ofPieces, placeFrom]
  | cons t ts ih =>
      have ht := hts t List.mem_cons_self
      have hlater : ∀ u ∈ ts, u.Printable := fun u hu => hts u (List.mem_cons_of_mem _ hu)
      rw [List.flatMap_cons, placeFrom]
      cases hmarker : t.isText with
      | false =>
          rw [ofPieces_written ht hmarker,
            ih hlater hapart.tail (fun h => absurd rfl h) fun _ => rfl]
          rfl
      | true =>
          cases t with
          | opening offset name arguments => cases hmarker
          | closing offset name => cases hmarker
          | text offset content =>
              obtain ⟨hdollar, hsettled, hshut⟩ := apart_text hapart
              obtain rfl : run = "" := Classical.byContradiction fun hne =>
                absurd (hrun hne _ rfl) (by simp [isText])
              obtain rfl := hstart rfl
              have hnext : ∀ u ∈ ts.head?, u.isText = false := by
                intro u hu
                obtain ⟨us, rfl⟩ := List.head?_eq_some_iff.mp hu
                exact (List.isChain_cons_cons.mp hapart).1.1
              -- the text is read as a run, which the next marker or the end turns into a token
              rw [written, pieces_escape_append seesNumberSign_opensMarker hdollar hsettled,
                ofPieces_shielded hshut, flatMap_text_pieces, String.ofList_toList, String.empty_append,
                ih hlater hapart.tail (fun _ => hnext) fun h => absurd h ht, ofRun_of_ne ht]
              rfl

/-- **Scanning undoes printing.** -/
theorem scan_print_of_canonical (h : Canonical ts) : scan (print ts) = ts := by
  have hread : ofPieces 0 0 "" (pieces opensMarker (ts.flatMap written)) =
      ofRun 0 "" ++ placeFrom 0 ts :=
    ofPieces_print h.printable h.apart (fun hne => absurd rfl hne) fun _ => rfl
  rw [scan, print, String.toList_ofList, hread, h.placed.placeFrom_eq]
  rfl

/-! ## The tokens of a source -/

/-- The token of a marker can be told from what is written for it. -/
theorem printable_ofMarker {body : List Char} (hbody : '\x7d' ∉ body) (p : Nat) :
    (ofMarker p body).Printable := by
  obtain ⟨name, arguments, hsays, htoken⟩ :=
    (Marker.means_iff (m := ⟨p, body⟩) (t := ofMarker p body)).mpr rfl
  obtain ⟨lead, gap, tail, -, -, -, hname, hbare, hsep, hsplit⟩ := hsays
  obtain rfl : body = lead ++ name ++ gap ++ arguments ++ tail := hsplit
  simp only [List.mem_append, not_or] at hbody
  obtain ⟨⟨⟨⟨-, hname'⟩, -⟩, harguments⟩, -⟩ := hbody
  rw [htoken]
  split
  · rw [Printable, String.toList_ofList]
    exact ⟨hbare, harguments⟩
  · rename_i hend
    rw [Printable, String.toList_ofList, String.toList_ofList]
    refine ⟨fun c hc => ⟨hname c hc, ?_⟩, fun h => hend ?_, fun h => ?_, hbare, harguments⟩
    · rintro rfl
      exact hname' hc
    · have hlist := congrArg String.toList h
      rw [String.toList_ofList] at hlist
      exact hlist
    · have hnil : name = [] := by simpa using h
      have hargs : arguments = [] := Classical.not_not.mp fun hne => (hsep hne).1 hnil
      rw [hargs]

/-- Every token can stand behind a marker. -/
theorem mayPrecede_ofMarker (p : Nat) (body : List Char) (u : Token) :
    MayPrecede (ofMarker p body) u := by
  simp only [ofMarker]
  split <;> exact trivial

/-- Whether a **run of text can end before the rest** of a source, as a token of its own. -/
structure MayEnd (run s : List Char) : Prop where
  /-- It does not escape what begins there. -/
  free : run.getLast? = some '\\' → ¬ Begins opensMarker s
  /-- A marker that is opened in it is closed in it, or not at all. -/
  settled : '\x7d' ∈ s → ∀ opened rest, opened <:+ run → opened ≠ [] →
    opened ++ s = '$' :: '\x7b' :: rest → opensMarker rest = true → '\x7d' ∈ opened

/-- The empty run can end everywhere. -/
theorem MayEnd.nil (s : List Char) : MayEnd [] s where
  free h := by cases h
  settled _ opened rest hopened hne := absurd (List.suffix_nil.mp hopened) hne

/-- A run can end behind a character that does not begin a marker, and escapes none. -/
theorem MayEnd.char {run s : List Char} {c : Char} (h : MayEnd run (c :: s))
    (plain : ¬ Begins opensMarker (c :: s)) (hfree : c = '\\' → ¬ Begins opensMarker s) :
    MayEnd (run ++ [c]) s := by
  refine ⟨fun hlast => hfree ?_, fun hclosed opened rest hopened hne hsplit hopens => ?_⟩
  · rw [List.getLast?_concat] at hlast
    exact Option.some.inj hlast
  · obtain ⟨opened, rfl⟩ : ∃ front, opened = front ++ [c] := by
      obtain ⟨before, hbefore⟩ := hopened
      have hlast := congrArg List.getLast? hbefore
      rw [List.getLast?_append_of_ne_nil _ hne, List.getLast?_concat] at hlast
      exact List.getLast?_eq_some_iff.mp hlast
    rw [List.append_assoc, List.singleton_append] at hsplit
    by_cases hnil : opened = []
    · -- the character would begin the marker
      subst hnil
      obtain ⟨hc, hs⟩ := List.cons.inj hsplit
      refine absurd ⟨rest, hsplit, hopens, ?_⟩ plain
      rw [hs] at hclosed
      simpa using hclosed
    · obtain ⟨before, hbefore⟩ := hopened
      rw [← List.append_assoc] at hbefore
      have hsuffix : opened <:+ run := ⟨before, List.append_cancel_right hbefore⟩
      have hmem := h.settled (List.mem_cons_of_mem c hclosed) opened rest hsuffix hnil hsplit hopens
      exact List.mem_append_left [c] hmem

/-- A run can end behind a marker that was escaped. -/
theorem MayEnd.site (run inner s : List Char) : MayEnd (run ++ Piece.siteText inner) s := by
  have hlast : (run ++ Piece.siteText inner).getLast? = some '\x7d' := by
    rw [Piece.siteText, ← List.cons_append, ← List.cons_append, ← List.append_assoc,
      List.getLast?_concat]
  refine ⟨fun h => ?_, fun _ opened rest hopened hne _ _ => ?_⟩
  · rw [hlast] at h
    cases h
  · obtain ⟨before, hbefore⟩ := hopened
    rw [← hbefore, List.getLast?_append_of_ne_nil _ hne] at hlast
    exact List.mem_of_getLast? hlast

/-- A run that ends before a marker can stand there as a token. -/
theorem MayEnd.mayPrecede {run : String} {inner after : List Char}
    (h : MayEnd run.toList (Piece.siteText inner ++ after))
    (hopens : opensMarker (inner ++ '\x7d' :: after) = true) (offset : Int) {u : Token}
    (hu : u.isText = false) : MayPrecede (.text offset run) u := by
  refine ⟨hu, fun hlast => h.free hlast (begins_site hopens), fun before rest hsplit hwanted => ?_⟩
  have hmem : '\x7d' ∈ '$' :: '\x7b' :: rest := by
    refine h.settled (by simp [Piece.siteText]) _ (rest ++ (Piece.siteText inner ++ after))
      ⟨before, hsplit.symm⟩ (by simp) rfl ?_
    rw [← hwanted]
    cases rest with
    | nil => cases hwanted
    | cons c rest => rfl
  simpa using hmem

/-- **The tokens of pieces can be printed**, after a run of text that can end before them. -/
theorem ofPieces_printable {s : List Char} {ps : List Piece} (hcut : Cut opensMarker s ps)
    {run : String} (h : MayEnd run.toList s) (p start : Nat) :
    (∀ t ∈ ofPieces p start run ps, t.Printable) ∧ (ofPieces p start run ps).IsChain MayPrecede := by
  fun_induction ofPieces p start run ps generalizing s with
  | case1 p start run =>
      rw [ofRun]
      split
      · exact ⟨fun t ht => (by cases ht), .nil⟩
      · rename_i hne
        refine ⟨fun t ht => ?_, .singleton _⟩
        obtain rfl := List.mem_singleton.mp ht
        exact fun hempty => hne (String.isEmpty_iff.mpr hempty)
  | case2 p start run inner rest ih =>
      cases hcut with
      | char plain hrest =>
          cases hrest with
          | site sort closed later =>
              refine ih later ?_
              rw [String.toList_append, String.toList_ofList]
              exact .site _ _ _
  | case3 p start run c rest hfree ih =>
      cases hcut with
      | char plain later =>
          refine ih later ?_
          rw [String.toList_push]
          refine h.char plain fun hc hbegins => ?_
          obtain ⟨inner, rest', hsite⟩ := later.of_begins hbegins
          exact hfree inner rest' hsite hc
  | case4 p start run inner rest next =>
      rename_i ih
      cases hcut with
      | @site _ after _ sort closed later =>
          have hbody : '\x7d' ∉ inner.drop 1 := fun hmem => closed (List.mem_of_mem_drop hmem)
          obtain ⟨hlater, hchain⟩ := ih later (.nil _)
          have hmarkers := List.forall_mem_cons.mpr ⟨printable_ofMarker hbody p, hlater⟩
          have hbehind := hchain.cons fun u _ => mayPrecede_ofMarker p (inner.drop 1) u
          rw [ofRun]
          split
          · exact ⟨hmarkers, hbehind⟩
          · rename_i hne
            refine ⟨List.forall_mem_cons.mpr ⟨fun hempty => hne (String.isEmpty_iff.mpr hempty), hmarkers⟩,
              List.isChain_cons_cons.mpr ⟨?_, hbehind⟩⟩
            exact h.mayPrecede sort start (isText_ofMarker p _)

/-- Moving a token does not change what is written for it, and whether it can be told from that. -/
theorem printable_place (offset : Int) : (t.place offset).Printable ↔ t.Printable := by
  cases t <;> exact Iff.rfl

/-- Moving tokens does not change whether one can stand before the other. -/
theorem mayPrecede_place {u : Token} (offset offset' : Int) :
    MayPrecede (t.place offset) (u.place offset') ↔ MayPrecede t u := by
  cases t with
  | text o content => rw [place, MayPrecede, MayPrecede, isText_place]
  | opening o name arguments => exact Iff.rfl
  | closing o name => exact Iff.rfl

/-- Tokens can also be printed where they are placed. -/
theorem placeFrom_printable (hts : ∀ t ∈ ts, t.Printable) (hapart : ts.IsChain MayPrecede) (p : Nat) :
    (∀ t ∈ placeFrom p ts, t.Printable) ∧ (placeFrom p ts).IsChain MayPrecede := by
  induction ts generalizing p with
  | nil => exact ⟨fun t ht => (by cases ht), .nil⟩
  | cons t ts ih =>
      obtain ⟨ht, hts⟩ := List.forall_mem_cons.mp hts
      obtain ⟨hlater, hchain⟩ := ih hts hapart.tail (p + t.written.length)
      refine ⟨List.forall_mem_cons.mpr ⟨(printable_place p).mpr ht, hlater⟩, hchain.cons fun u hu => ?_⟩
      cases ts with
      | nil => cases hu
      | cons v vs =>
          obtain rfl := Option.some.inj hu
          exact (mayPrecede_place _ _).mpr (List.isChain_cons_cons.mp hapart).1

/-- **Printing and scanning.** A text is printed with a backslash before each of its leftmost markers
that do not overlap. Scanning what is printed for a canonical row of tokens gives this row, and the
tokens of every source, renumbered, are a canonical row. -/
theorem scan_print :
    (∀ content written : List Char,
      Escapes opensMarker content written ↔ written = escape opensMarker content) ∧
    (∀ ts, Canonical ts → scan (print ts) = ts) ∧
    ∀ source, Canonical (renumber (scan source)) := by
  refine ⟨fun _ _ => escapes_iff, fun ts => scan_print_of_canonical, fun source => ?_⟩
  have hend : MayEnd ("" : String).toList source.toList := .nil _
  obtain ⟨hprintable, hapart⟩ := ofPieces_printable (cut_pieces source.toList) hend 0 0
  obtain ⟨hprintable, hapart⟩ := placeFrom_printable hprintable hapart 0
  exact ⟨hprintable, hapart, placed_placeFrom 0 _⟩

/-- A directive around nothing, between a dollar sign and a text with a backslash, a marker, and the
beginning of another one. -/
def hedged : List Token :=
  [.text 0 "$", .opening 1 "if" "v", .closing 9 "if", .text 19 "\\$\x7b#x\x7d$\x7b#"]

theorem scan_print_hedged : Canonical hedged ∧ scan (print hedged) = hedged := by
  have hname : Text.Bare "if".toList := ⟨by simp [Text.isBlank], by simp [Text.isBlank]⟩
  have hargs : Text.Bare "v".toList := ⟨by simp [Text.isBlank], by simp [Text.isBlank]⟩
  have hdollar : MayPrecede (.text 0 "$") (.opening 1 "if" "v") := by
    refine ⟨rfl, by decide, fun before rest hsplit _ => ?_⟩
    have hlen := congrArg List.length hsplit
    simp at hlen
    omega
  have hplaced : renumber hedged = hedged := by cbv
  have h : Canonical hedged := by
    refine ⟨?_, .cons_cons hdollar (.cons_cons trivial (.cons_cons trivial (.singleton _))), ?_⟩
    · simp only [hedged, List.forall_mem_cons]
      refine ⟨by simp [Printable],
        ⟨by simp [Text.isBlank], by decide, by decide, hargs, by decide⟩,
        ⟨hname, by decide⟩, by simp [Printable], fun t ht => (by cases ht)⟩
    · rw [← hplaced]
      exact placed_placeFrom 0 hedged
  exact ⟨h, scan_print.2.1 hedged h⟩

end Token

end Stencil
