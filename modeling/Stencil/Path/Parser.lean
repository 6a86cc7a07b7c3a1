import Stencil.Path.Basic
import Stencil.Text.Blank

/-! # Reading paths

A path is a name or an index, followed by any number of indexes and of names after a point. An index
is a bracketed integer or quoted key. -/

namespace Stencil.Path

/-- Whether a character can stand in a bare name. -/
def isNameChar (c : Char) : Bool := !(c == '.' || c == '[' || c == ']' || Text.isBlank c)

/-- What stands between the brackets of an **index**, as it is written. -/
inductive Index where
  /-- A sign and ASCII digits, by their values. -/
  | integer (negative : Bool) (digits : List Nat)
  /-- A key, with the backslashes of its escapes removed. -/
  | quoted (key : List Char)

/-- Read the body of a quoted key and the quote that closes it. A backslash escapes any character but
a line feed. -/
def quotedKey? (quote : Char) : List Char → Option (List Char × List Char)
  | [] => none
  | [c] => if c = quote then some ([], []) else none
  | c :: d :: rest =>
    if c = quote then some ([], d :: rest)
    else if c = '\\' then
      if d = '\n' then none else (quotedKey? quote rest).map fun p => (d :: p.1, p.2)
    else (quotedKey? quote (d :: rest)).map fun p => (c :: p.1, p.2)

/-- Read an integer: an optional minus and ASCII digits. -/
def integer? (s : List Char) : Option (Index × List Char) :=
  let negative := s.head? == some '-'
  let t := if negative then s.drop 1 else s
  match (t.takeWhile Char.isDigit).filterMap Text.asciiDigit? with
  | [] => none
  | ds => some (.integer negative ds, t.dropWhile Char.isDigit)

/-- Read what stands between the brackets of an index. -/
def item? : List Char → Option (Index × List Char)
  | [] => none
  | c :: body =>
    if c = '\x22' || c = '\x27' then (quotedKey? c body).map fun p => (.quoted p.1, p.2)
    else integer? (c :: body)

/-- Read a closing bracket and the blanks before it. -/
def close? (s : List Char) : Option (List Char) :=
  match Text.trimLeft s with
  | ']' :: after => some after
  | _ => none

/-- Read an index from behind its opening bracket up to and with the closing one. -/
def index? (s : List Char) : Option (Index × List Char) :=
  (item? (Text.trimLeft s)).bind fun p => (close? p.2).map fun after => (p.1, after)

/-- The key that an index stands for. -/
def Index.key : Index → Except Limit Key
  | .integer negative ds => .index <$> Decimal.read negative ds
  | .quoted key => .ok (.name (String.ofList key))

theorem length_le_trimLeft (s : List Char) : (Text.trimLeft s).length ≤ s.length :=
  (List.dropWhile_sublist _).length_le

theorem length_le_of_quotedKey? {quote : Char} {s key rest : List Char}
    (h : quotedKey? quote s = some (key, rest)) : rest.length ≤ s.length := by
  induction s using quotedKey?.induct quote generalizing key rest with
  | case1 => simp [quotedKey?] at h
  | case2 => simp_all [quotedKey?]
  | case3 c hc => simp [quotedKey?, hc] at h
  | case4 d tail => simp_all [quotedKey?]
  | case5 tail hq => simp [quotedKey?, hq] at h
  | case6 d tail hd hq ih =>
    simp only [quotedKey?, hq, hd, if_true, if_false] at h
    obtain ⟨⟨k, r⟩, hk, he⟩ := Option.map_eq_some_iff.1 h
    have := ih hk
    simp only [Prod.mk.injEq] at he
    simp only [List.length_cons]
    rw [← he.2]
    omega
  | case7 c d tail hq hb ih =>
    simp only [quotedKey?, hq, hb, if_false] at h
    obtain ⟨⟨k, r⟩, hk, he⟩ := Option.map_eq_some_iff.1 h
    have := ih hk
    simp only [Prod.mk.injEq] at he
    simp only [List.length_cons] at this ⊢
    rw [← he.2]
    omega

theorem length_le_of_integer? {s rest : List Char} {item : Index}
    (h : integer? s = some (item, rest)) : rest.length ≤ s.length := by
  unfold integer? at h
  dsimp only at h
  split at h
  · simp at h
  · simp only [Option.some.injEq, Prod.mk.injEq] at h
    rw [← h.2]
    refine Nat.le_trans (List.dropWhile_sublist _).length_le ?_
    split
    · simp
    · exact Nat.le_refl _

theorem length_le_of_item? {s rest : List Char} {item : Index}
    (h : item? s = some (item, rest)) : rest.length ≤ s.length := by
  unfold item? at h
  split at h
  · simp at h
  · split at h
    · obtain ⟨⟨k, r⟩, hk, he⟩ := Option.map_eq_some_iff.1 h
      have := length_le_of_quotedKey? hk
      simp only [Prod.mk.injEq] at he
      rw [← he.2]
      simp only [List.length_cons]
      omega
    · exact length_le_of_integer? h

theorem length_le_of_close? {s rest : List Char} (h : close? s = some rest) :
    rest.length ≤ s.length := by
  have hs := length_le_trimLeft s
  unfold close? at h
  split at h
  · rename_i after heq
    rw [heq, List.length_cons] at hs
    rw [← Option.some.inj h]
    omega
  · simp at h

/-- Reading an index leaves no more than there was. -/
theorem length_le_of_index? {s rest : List Char} {item : Index}
    (h : index? s = some (item, rest)) : rest.length ≤ s.length := by
  obtain ⟨⟨it, r⟩, hitem, hclose⟩ := Option.bind_eq_some_iff.1 h
  obtain ⟨after, hafter, he⟩ := Option.map_eq_some_iff.1 hclose
  have h1 := length_le_of_item? hitem
  have h2 := length_le_of_close? hafter
  have h3 := length_le_trimLeft s
  simp only [Prod.mk.injEq] at he
  rw [← he.2]
  dsimp only at h2
  omega

/-- Read a bare name. -/
def name? (s : List Char) : Option (List Char × List Char) :=
  match s.takeWhile isNameChar with
  | [] => none
  | name => some (name, s.dropWhile isNameChar)

/-- Reading a name leaves less than there was. -/
theorem length_lt_of_name? {s name rest : List Char} (h : name? s = some (name, rest)) :
    rest.length < s.length := by
  have hlen := congrArg List.length (List.takeWhile_append_dropWhile (p := isNameChar) (l := s))
  unfold name? at h
  split at h
  · simp at h
  · rename_i hne
    simp only [Option.some.injEq, Prod.mk.injEq] at h
    rw [List.length_append] at hlen
    have : 0 < (s.takeWhile isNameChar).length := List.length_pos_iff.2 hne
    rw [← h.2]
    omega

/-- Read the keys of a path. The flag tells whether this is its beginning, and `total` is the length
of the whole path, from which positions are counted. -/
def keysFrom (text : String) (total : Nat) (first : Bool) (s : List Char) :
    Except PathError (List Key) :=
  let position := total - s.length
  match s with
  | [] => .ok []
  | '[' :: body =>
    match _h : index? body with
    | none => .error (.malformed text (.badIndex position))
    | some (item, rest) => do
      let key ← item.key.mapError .limit
      let keys ← keysFrom text total false rest
      return key :: keys
  | '.' :: body =>
    if first then .error (.malformed text .leadingPoint)
    else
      match _h : name? body with
      | none => .error (.malformed text (.missingName (position + 1)))
      | some (name, rest) => do
        let keys ← keysFrom text total false rest
        return .name (String.ofList name) :: keys
  | c :: body =>
    if first then
      match _h : name? (c :: body) with
      | none => .error (.malformed text (.missingName position))
      | some (name, rest) => do
        let keys ← keysFrom text total false rest
        return .name (String.ofList name) :: keys
    else .error (.malformed text (.unexpected c position))
termination_by s.length
decreasing_by
  · have := length_le_of_index? _h
    simp only [List.length_cons]
    omega
  · have := length_lt_of_name? _h
    simp only [List.length_cons]
    omega
  · exact length_lt_of_name? _h

/-- **Read a path.** Blanks around it do not count. -/
def parse (text : String) : Except PathError Path :=
  match Text.trim text.toList with
  | [] => .error (.malformed text .empty)
  | s => do
    let keys ← keysFrom text s.length true s
    return ⟨String.ofList s, keys⟩

end Stencil.Path
