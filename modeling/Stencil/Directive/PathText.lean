import Stencil.Text.Blank

/-! # Paths inside directives

Where a path ends in the arguments of a directive, before it is read as a path: bracket groups may
hold any characters, and outside of them every character of a class belongs to the path. -/

namespace Stencil.Directive

/-- Split off the longest run of bracket groups and of characters of a class. A bracket group reaches
to the next closing bracket; a bracket that is never closed ends the run. -/
def pathText (inPath : Char → Bool) : List Char → List Char × List Char
  | [] => ([], [])
  | c :: rest =>
    if c = '[' then
      match _h : Text.cut? ']' rest with
      | none => ([], c :: rest)
      | some (inside, after) =>
        let p := pathText inPath after
        ('[' :: (inside ++ ']' :: p.1), p.2)
    else if inPath c then
      let p := pathText inPath rest
      (c :: p.1, p.2)
    else ([], c :: rest)
termination_by s => s.length
decreasing_by
  · have := Text.length_lt_of_cut? _h
    simp only [List.length_cons]
    omega
  · simp

end Stencil.Directive
