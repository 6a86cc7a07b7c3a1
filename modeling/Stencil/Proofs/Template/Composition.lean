import Stencil.Proofs.Render.Row
import Stencil.Proofs.Text.Blank
import Stencil.Proofs.Value.Scope
import Stencil.Template

/-! # Composing sources

What a source that is put together from others renders, under the default configuration and with data
that hold no stream.

* `Directive.scan_enclosed`: the tokens of a source inside a directive.
* `Template.compile_compositional`: a closed source that another one follows, or that is the content of
  a directive, compiles, and renders what its parts do. -/

namespace Stencil

/-! ## Sources inside a directive -/

open Markup

/-- The one token of a marker. -/
theorem Token.scan_siteText {body : List Char} (h : '\x7d' ∉ body) :
    scan (String.ofList (Piece.siteText ('#' :: body))) = [ofMarker 0 body] := by
  have hcut : Text.cut? '\x7d' ('#' :: body ++ ['\x7d']) = some ('#' :: body, []) :=
    Text.cut?_append_cons (by simpa using h) []
  have hpieces : pieces opensMarker (Piece.siteText ('#' :: body)) = [.site ('#' :: body)] := by
    rw [Piece.siteText, pieces_site rfl hcut, pieces]
  rw [scan, String.toList_ofList, hpieces, ofPieces, ofPieces]
  rfl

namespace Directive

/-- **A source inside a directive**: between its opening marker, with arguments, and its closing
marker. -/
def enclosed (name arguments source : String) : String :=
  "$\x7b#" ++ name ++ " " ++ arguments ++ "\x7d" ++ source ++ "$\x7b#end " ++ name ++ "\x7d"

/-- Whether a text can be the **name of a directive**: it is a word, but not the one that closes
directives, and holds no closing brace. -/
structure IsName (name : String) : Prop where
  /-- It is not empty. -/
  nonempty : name.toList ≠ []
  /-- It holds no blank. -/
  word : ∀ c ∈ name.toList, Text.isBlank c = false
  /-- It holds no closing brace. -/
  braceless : '\x7d' ∉ name.toList
  /-- It does not close directives. -/
  opens : name.toList ≠ Token.endWord

theorem isName_condition : IsName Condition.directive where
  nonempty := by decide
  word := by simp [Condition.directive, Text.isBlank]
  braceless := by decide
  opens := by decide

theorem isName_iteration : IsName Iteration.directive where
  nonempty := by decide
  word := by simp [Iteration.directive, Text.isBlank]
  braceless := by decide
  opens := by decide

/-- Every header stands under the name of a directive. -/
theorem isName_directive (h : Header) : IsName h.directive := by
  cases h with
  | condition c => exact isName_condition
  | iteration it => exact isName_iteration

/-- The token of an opening marker. -/
theorem ofMarker_opening {name : String} (h : IsName name) (offset : Int) (arguments : List Char) :
    Token.ofMarker offset (name.toList ++ ' ' :: arguments) =
      .opening offset name (String.ofList (Text.trim arguments)) := by
  have hword : Text.firstWord ([] ++ name.toList ++ ' ' :: arguments) =
      (name.toList, ' ' :: arguments) := by
    refine Text.firstWord_append (fun c hc => by cases hc) h.word (fun c hc => ?_) fun hnil =>
      absurd hnil h.nonempty
    obtain rfl := Option.some.inj hc
    decide
  rw [List.nil_append] at hword
  simp only [Token.ofMarker, hword, if_neg h.opens, String.ofList_toList]
  rw [Text.trim_cons (by decide)]

/-- The token of a closing marker. -/
theorem ofMarker_closing {name : String} (h : IsName name) (offset : Int) :
    Token.ofMarker offset (Token.endWord ++ ' ' :: name.toList) = .closing offset name := by
  have hword : Text.firstWord ([] ++ Token.endWord ++ ' ' :: name.toList) =
      (Token.endWord, ' ' :: name.toList) := by
    refine Text.firstWord_append (fun c hc => by cases hc) (by simp [Token.endWord, Text.isBlank])
      (fun c hc => ?_) fun hnil => absurd hnil (by decide)
    obtain rfl := Option.some.inj hc
    decide
  have htrim : Text.trim ([' '] ++ name.toList ++ []) = name.toList := by
    refine Text.trim_append (by decide) ⟨fun c hc => ?_, fun c hc => ?_⟩ (by decide)
    · exact h.word c (List.mem_of_mem_head? hc)
    · exact h.word c (List.mem_of_getLast? hc)
  rw [List.append_nil, List.singleton_append] at htrim
  rw [List.nil_append] at hword
  simp only [Token.ofMarker, hword, htrim, String.ofList_toList, if_true]

/-- **The tokens of a source inside a directive** are those of the source, moved, between those of the
two markers. -/
theorem scan_enclosed {name arguments source : String} (hname : IsName name)
    (harguments : '\x7d' ∉ arguments.toList) (hsource : Closed source.toList) :
    ∃ k stop, Token.scan (enclosed name arguments source) =
      .opening 0 name (Text.trimmed arguments) ::
        ((Token.scan source).map (Token.shift k) ++ [.closing stop name]) := by
  have hopening : '\x7d' ∉ name.toList ++ ' ' :: arguments.toList := by
    simp [hname.braceless, harguments]
  have hclosing : '\x7d' ∉ Token.endWord ++ ' ' :: name.toList := by
    simp [hname.braceless, Token.endWord]
  have hsplit : enclosed name arguments source =
      String.ofList (Piece.siteText ('#' :: (name.toList ++ ' ' :: arguments.toList))) ++
        (source ++ String.ofList (Piece.siteText ('#' :: (Token.endWord ++ ' ' :: name.toList)))) := by
    apply String.toList_inj.mp
    simp [enclosed, Piece.siteText, Token.endWord]
  -- markers are not fused with anything, so that the tokens of the source stand between them
  have hclosed : Closed (String.ofList
      (Piece.siteText ('#' :: (name.toList ++ ' ' :: arguments.toList)))).toList := by
    rw [String.toList_ofList]
    exact .siteText _
  have hscan := Token.scan_append hclosed (source ++
    String.ofList (Piece.siteText ('#' :: (Token.endWord ++ ' ' :: name.toList))))
  rw [← hsplit, Token.scan_siteText hopening, ofMarker_opening hname, seam_cons (fun _ => rfl),
    seam_nil_left, Token.scan_append hsource, Token.scan_siteText hclosing, ofMarker_closing hname,
    List.map_singleton, Token.shift, seam_eq_append (fun t => by cases t <;> rfl), List.map_append,
    List.map_singleton, Token.shift] at hscan
  exact ⟨_, _, hscan⟩

end Directive

/-! ## Templates -/

open Render

namespace Template

/-- What compiling under the default configuration gives. -/
theorem compile_eq_ok_iff {s : String} {t : Template} :
    compile s {} = .ok t ↔
      ∃ tree, Tree.build (Token.scan s) none = .ok tree ∧ t = ⟨tree, s, none⟩ := by
  constructor
  · intro h
    obtain ⟨tree, htree, h⟩ := bind_eq_ok_iff.mp h
    exact ⟨tree, htree, (Except.ok.inj h).symm⟩
  · rintro ⟨tree, htree, rfl⟩
    exact bind_eq_ok_iff.mpr ⟨tree, htree, rfl⟩

/-- What a template without a limit returns for data without streams, from any account. -/
theorem fst_run_render {entries : List (Value × Value)} (h : StreamFree (.map entries))
    (tree : List Branch) (source : String) (a : Account) :
    (((Template.mk tree source none).render (.map entries)).run a).1 =
      (Branch.renderAll none tree (.map entries)).outcome :=
  Branch.steady_renderAll tree (.map entries) h { a with used := 0 }

/-- A template of one branch returns what the branch does. -/
theorem outcome_singleton {scope : Value} (h : StreamFree scope) (b : Branch) :
    (Branch.renderAll none [b] scope).outcome = (Branch.render none b scope).outcome := by
  rw [Branch.outcome_renderAll h, concat, concat, inTurn_empty_right]

/-- **Joined sources**: what follows a closed source is rendered behind it. -/
theorem compile_append {s s' : String} {t t' : Template} (ht : compile s {} = .ok t)
    (ht' : compile s' {} = .ok t') (hs : Closed s.toList) :
    ∃ w, compile (s ++ s') {} = .ok w ∧
      ∀ entries, StreamFree (.map entries) → ∀ a : Account,
        ((w.render (.map entries)).run a).1 =
          inTurn ((t.render (.map entries)).run a).1 ((t'.render (.map entries)).run a).1 := by
  obtain ⟨tree, htree, rfl⟩ := compile_eq_ok_iff.mp ht
  obtain ⟨tree', htree', rfl⟩ := compile_eq_ok_iff.mp ht'
  have hbuild := Tree.build_seam htree htree' (fun _ _ => Token.closed_of_getLast? hs) s.toList.length
  rw [← Token.scan_append hs] at hbuild
  refine ⟨_, compile_eq_ok_iff.mpr ⟨_, hbuild, rfl⟩, fun entries hfree a => ?_⟩
  rw [fst_run_render hfree, fst_run_render hfree, fst_run_render hfree]
  exact Branch.outcome_seam hfree tree tree'

/-- **A closed source inside a directive** compiles to the one branch of the header. -/
theorem compile_directive {s : String} {tree : List Branch}
    (htree : Tree.build (Token.scan s) none = .ok tree) (hs : Closed s.toList)
    {name arguments : String} {header : Header} (harguments : '\x7d' ∉ arguments.toList)
    (hread : Header.parse name (Text.trimmed arguments) 0 = .ok header) :
    compile (Directive.enclosed name arguments s) {} =
      .ok ⟨[header.branch tree], Directive.enclosed name arguments s, none⟩ := by
  obtain rfl := Header.directive_of_parse hread
  obtain ⟨k, stop, hscan⟩ :=
    Directive.scan_enclosed (Directive.isName_directive header) harguments hs
  have hbuild := Tree.build_directive htree hread k stop
  rw [← hscan] at hbuild
  exact compile_eq_ok_iff.mpr ⟨_, hbuild, rfl⟩

/-- It renders what that branch does. -/
theorem compile_enclosed {s : String} {tree : List Branch}
    (htree : Tree.build (Token.scan s) none = .ok tree) (hs : Closed s.toList)
    {name arguments : String} {header : Header} (harguments : '\x7d' ∉ arguments.toList)
    (hread : Header.parse name (Text.trimmed arguments) 0 = .ok header) :
    ∃ w, compile (Directive.enclosed name arguments s) {} = .ok w ∧
      ∀ entries, StreamFree (.map entries) → ∀ a : Account,
        ((w.render (.map entries)).run a).1 =
          (Branch.render none (header.branch tree) (.map entries)).outcome := by
  refine ⟨_, compile_directive htree hs harguments hread, fun entries hfree a => ?_⟩
  rw [fst_run_render hfree, outcome_singleton hfree]

/-- **A closed source inside a conditional directive** is rendered if the condition holds. -/
theorem compile_conditional {s : String} {t : Template} (ht : compile s {} = .ok t)
    (hs : Closed s.toList) {arguments : String} {offset : Option Int} {c : Condition}
    (harguments : '\x7d' ∉ arguments.toList) (hc : Condition.parse arguments offset = .ok c) :
    ∃ w, compile (Directive.enclosed "if" arguments s) {} = .ok w ∧
      ∀ entries, StreamFree (.map entries) → ∀ a : Account,
        ((w.render (.map entries)).run a).1 = (do
          let verdict ← (c.test? (.map entries)).mapError RenderError.limit
          if verdict.holds then ((t.render (.map entries)).run a).1 else .ok "") := by
  obtain ⟨tree, htree, rfl⟩ := compile_eq_ok_iff.mp ht
  have hread : Condition.parse (Text.trimmed arguments) (some 0) = .ok c :=
    Condition.parse_of_trim_eq hc (by rw [Text.toList_trimmed, Text.trim_trim]) _
  obtain ⟨w, hw, hrender⟩ := compile_enclosed htree hs harguments
    (Header.parse_eq_ok_iff.mpr (Or.inl ⟨rfl, c, hread, rfl⟩))
  refine ⟨w, hw, fun entries hfree a => ?_⟩
  rw [hrender entries hfree a, fst_run_render hfree]
  exact Branch.outcome_conditional hfree c tree

/-- **A closed source inside a directive that repeats it** is rendered once for every pair, with the
names of the iteration bound to it. -/
theorem compile_repeated {s : String} {t : Template} (ht : compile s {} = .ok t)
    (hs : Closed s.toList) {arguments : String} {offset : Option Int} {it : Iteration}
    (harguments : '\x7d' ∉ arguments.toList) (hit : Iteration.parse arguments offset = .ok it) :
    ∃ w, compile (Directive.enclosed "each" arguments s) {} = .ok w ∧
      ∀ entries, StreamFree (.map entries) → ∀ a : Account,
        ((w.render (.map entries)).run a).1 = (do
          let v ← ((Value.map entries).resolve it.collection).mapError RenderError.limit
          let parts ← v.pairs.mapM fun pair => ((t.render (it.bind (.map entries) pair)).run a).1
          return String.join parts) := by
  obtain ⟨tree, htree, rfl⟩ := compile_eq_ok_iff.mp ht
  have hread : Iteration.parse (Text.trimmed arguments) (some 0) = .ok it :=
    Iteration.parse_of_trim_eq hit (by rw [Text.toList_trimmed, Text.trim_trim]) _
  obtain ⟨w, hw, hrender⟩ := compile_enclosed htree hs harguments
    (Header.parse_eq_ok_iff.mpr (Or.inr ⟨rfl, it, hread, rfl⟩))
  refine ⟨w, hw, fun entries hfree a => ?_⟩
  rw [hrender entries hfree a]
  refine (Branch.outcome_repeated hfree it tree).trans ?_
  cases hv : (Value.map entries).resolve it.collection with
  | error l => rfl
  | ok v =>
      -- the scope of a round is again a mapping without streams, from which the template renders
      have hround : ∀ pair ∈ v.pairs,
          (Branch.renderAll none tree (it.bind (.map entries) pair)).outcome =
            (((Template.mk tree s none).render (it.bind (.map entries) pair)).run a).1 := by
        intro pair hpair
        have hinner := hfree.iterationBind it ((hfree.resolve hv).pairs pair hpair)
        obtain ⟨inner, hbind, -⟩ := it.binds_bind entries pair
        rw [hbind] at hinner ⊢
        exact (fst_run_render hinner tree s a).symm
      exact congrArg (fun rounds : Except RenderError (List String) =>
        rounds >>= fun parts => pure (String.join parts)) (mapM_congr hround)

/-- **Composing sources is composing what they render.** Under the default configuration, for a closed
source that compiles and data that hold no stream:

* with any source that compiles behind it, it compiles, and renders what it renders alone and then what
  the other renders alone;
* inside a conditional directive it compiles, and renders what it renders alone if the condition holds,
  and otherwise nothing;
* inside a directive that repeats it, it compiles, and renders for every pair of the collection, in
  order, what it renders alone when the names of the iteration are bound to the pair.

Where one of its parts fails, so does the whole, in the same way. -/
theorem compile_compositional {s : String} {t : Template} (ht : compile s {} = .ok t)
    (hs : Closed s.toList) :
    (∀ s' t', compile s' {} = .ok t' → ∃ w, compile (s ++ s') {} = .ok w ∧
      ∀ entries, StreamFree (.map entries) → ∀ a : Account,
        ((w.render (.map entries)).run a).1 = do
          let before ← ((t.render (.map entries)).run a).1
          let behind ← ((t'.render (.map entries)).run a).1
          return before ++ behind) ∧
    (∀ arguments offset c, '\x7d' ∉ arguments.toList →
      Condition.parse arguments offset = .ok c →
      ∃ w, compile (Directive.enclosed "if" arguments s) {} = .ok w ∧
        ∀ entries, StreamFree (.map entries) → ∀ a : Account,
          ((w.render (.map entries)).run a).1 = do
            let verdict ← (c.test? (.map entries)).mapError RenderError.limit
            if verdict.holds then ((t.render (.map entries)).run a).1 else .ok "") ∧
    (∀ arguments offset it, '\x7d' ∉ arguments.toList →
      Iteration.parse arguments offset = .ok it →
      (∀ entries pair, it.Binds entries pair (it.bind (.map entries) pair)) ∧
      ∃ w, compile (Directive.enclosed "each" arguments s) {} = .ok w ∧
        ∀ entries, StreamFree (.map entries) → ∀ a : Account,
          ((w.render (.map entries)).run a).1 = do
            let v ← ((Value.map entries).resolve it.collection).mapError RenderError.limit
            let parts ← v.pairs.mapM fun pair => ((t.render (it.bind (.map entries) pair)).run a).1
            return String.join parts) := by
  refine ⟨fun s' t' ht' => compile_append ht ht' hs, ?_, ?_⟩
  · intro arguments offset c harguments hc
    exact compile_conditional ht hs harguments hc
  · intro arguments offset it harguments hit
    exact ⟨it.binds_bind, compile_repeated ht hs harguments hit⟩

/-- A dash and a placeholder. -/
def dashed : String := "-${v}"

/-- A text, and a collection of two more. -/
def dashes : List (Value × Value) :=
  [(.text "v", .text "0"), (.text "xs", .list [.text "a", .text "b"])]

theorem compile_compositional_dashed :
    (∃ w, compile (dashed ++ "!") {} = .ok w ∧
      ((w.render (.map dashes)).run .start).1 = .ok "-0!") ∧
    (∃ w, compile (Directive.enclosed "if" "v" dashed) {} = .ok w ∧
      ((w.render (.map dashes)).run .start).1 = .ok "-0") ∧
    (∃ w, compile (Directive.enclosed "each" "xs as v" dashed) {} = .ok w ∧
      ((w.render (.map dashes)).run .start).1 = .ok "-a-b") := by
  have hdashed : compile dashed {} = .ok
      ⟨[.text [.literal "-", .placeholder ⟨"v", [.name "v"]⟩ "${v}"]], dashed, none⟩ := by
    with_unfolding_all rfl
  have hmark : compile "!" {} = .ok ⟨[.text [.literal "!"]], "!", none⟩ := by with_unfolding_all rfl
  have hclosed : Closed dashed.toList := .of_getLast? (by decide)
  have hitems : StreamFree (.list [.text "a", .text "b"]) := by
    refine .list fun v hv => ?_
    rcases List.mem_pair.mp hv with rfl | rfl
    · exact .text "a"
    · exact .text "b"
  have hfree : StreamFree (.map dashes) := by
    refine .map (fun e he => ?_) fun e he => ?_
    · rcases List.mem_pair.mp he with rfl | rfl
      · exact .text "v"
      · exact .text "xs"
    · rcases List.mem_pair.mp he with rfl | rfl
      · exact .text "0"
      · exact hitems
  obtain ⟨hjoined, hconditional, hrepeated⟩ := compile_compositional hdashed hclosed
  refine ⟨?_, ?_, ?_⟩
  · obtain ⟨w, hw, hrender⟩ := hjoined "!" _ hmark
    refine ⟨w, hw, ?_⟩
    rw [hrender _ hfree]
    with_unfolding_all rfl
  · have hv : Condition.parse "v" none = .ok ⟨false, ⟨"v", [.name "v"]⟩, .truthy⟩ := by
      with_unfolding_all rfl
    obtain ⟨w, hw, hrender⟩ := hconditional "v" none _ (by decide) hv
    refine ⟨w, hw, ?_⟩
    rw [hrender _ hfree]
    with_unfolding_all rfl
  · have hxs : Iteration.parse "xs as v" none = .ok ⟨⟨"xs", [.name "xs"]⟩, "v", none⟩ := by
      decide +kernel
    obtain ⟨-, w, hw, hrender⟩ := hrepeated "xs as v" none _ (by decide) hxs
    refine ⟨w, hw, ?_⟩
    rw [hrender _ hfree]
    with_unfolding_all rfl

end Template

end Stencil
