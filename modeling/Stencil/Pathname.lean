/-! # Path names

The normal form of the name of a file. -/

namespace Stencil.Pathname

/-- Cut a name at its slashes, and drop the parts that are empty or a single point. -/
def parts (name : List Char) : List (List Char) :=
  (name.splitOn '/').filter fun part => part != [] && part != ['.']

/-- The root that a name begins with: two slashes are a root of their own, and any other number of
them is one slash. -/
def root : List Char → List Char
  | '/' :: '/' :: '/' :: _ => ['/']
  | '/' :: '/' :: _ => ['/', '/']
  | '/' :: _ => ['/']
  | _ => []

/-- **The normal form of a name**: without empty parts and parts that stay where they are. -/
def normalize (name : String) : String :=
  match root name.toList ++ ['/'].intercalate (parts name.toList) with
  | [] => "."
  | s => String.ofList s

end Stencil.Pathname
