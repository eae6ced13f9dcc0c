import EndpointAtlas.Text.Split

/-!
# File paths

A path is a root and the names behind it. Empty names and single points are left out when a path is
read, so that a path has one text.
-/

namespace EndpointAtlas

/-- A path: what it starts from, and the names behind that. -/
structure FilePath where
  root : String
  names : List String
  deriving DecidableEq, Repr

namespace FilePath

/-- The root in front of a text: none, one slash, or exactly two. -/
def rootOf : List Char → String
  | '/' :: '/' :: '/' :: _ => "/"
  | '/' :: '/' :: _ => "//"
  | '/' :: _ => "/"
  | _ => ""

/-- The path of a text. -/
def ofText (s : String) : FilePath :=
  let names := (Text.splitOn '/' s.toList).filter fun name => name ≠ [] ∧ name ≠ ['.']
  ⟨rootOf s.toList, names.map String.ofList⟩

/-- The text of a path. -/
def text (p : FilePath) : String :=
  if p.root = "" ∧ p.names = [] then "." else p.root ++ "/".intercalate p.names

/-- The path of the directory that a path is in. -/
def parent (p : FilePath) : FilePath := ⟨p.root, p.names.dropLast⟩

/-- Whether a file can have the path: no name may hold NUL. -/
def isUsable (p : FilePath) : Bool := p.names.all fun name => !name.toList.contains '\x00'

end FilePath

end EndpointAtlas
