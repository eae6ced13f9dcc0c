import EndpointAtlas.Document.FilePath
import EndpointAtlas.Fault

/-!
# A directory of files

`Directory` is a working directory with all that is below it: files with their contents, and the
directories that their paths go through. `read` gives the content of a file and `location` finds out
where a file would be written if the directories on its path were made.
-/

namespace EndpointAtlas

/-- The files below a directory, by the names that lead to them. -/
structure Directory where
  files : List (List String × List UInt8)
  deriving Repr

namespace Directory

/-- What can be found at a path. -/
inductive Entry where
  | file (content : List UInt8)
  | directory
  deriving Repr

/-- A position on the way along a path: the names that lead to it, a directory that the working
directory is in, or a place of which nothing is known. -/
inductive Position where
  | inside (names : List String)
  | outside
  | elsewhere
  deriving DecidableEq, Repr

/-- What stands at a position, if something does. -/
def entry? (d : Directory) : Position → Option Entry
  | .outside => some .directory
  | .elsewhere => none
  | .inside names =>
    match d.files.lookup names with
    | some content => some (.file content)
    | none =>
      if names.isEmpty || d.files.any fun (other, _) => names.isPrefixOf other then some .directory
      else none

/-- Names have at most this many bytes. -/
def maxNameBytes : Nat := 255

/-- Paths have fewer bytes than this. -/
def maxPathBytes : Nat := 4096

/-- The name that leads to the directory above. -/
def above : String := ".."

/-- The position behind one more name. -/
def Position.step (name : String) : Position → Position
  | .inside names =>
    if name ≠ above then .inside (names ++ [name])
    else if names.isEmpty then .outside
    else .inside names.dropLast
  | .outside => if name = above then .outside else .elsewhere
  | .elsewhere => .elsewhere

/-- What happens where a directory is missing: it is a fault, or the directory is taken to be made.
Behind one that was made the others on the path are made one by one, so a file that is in the way
shows as such. -/
inductive Missing where
  | fault
  | make
  | made
  deriving DecidableEq, Repr

/-- What is wrong with a file in the place of a directory. -/
def Missing.inTheWay : Missing → FileError.Cause
  | .made => .exists
  | _ => .notADirectory

/-- The position at the end of some names, all but the last of which have to lead to directories. -/
def walk (d : Directory) : Missing → Position → List String → Except FileError.Cause Position
  | _, p, [] => .ok p
  | missing, p, name :: rest =>
    match d.entry? p, missing with
    | some (.file _), _ => .error missing.inTheWay
    | none, .fault => .error .notFound
    | entry, _ =>
      if maxNameBytes < name.utf8ByteSize then .error .nameTooLong
      else walk d (if entry.isNone then .made else missing) (p.step name) rest

/-- The positions that some names lead through, with the one that they lead to. -/
def passed : Position → List String → List Position
  | p, [] => [p]
  | p, name :: rest => p :: passed (p.step name) rest

/-- The position that a path starts from. -/
def start (path : FilePath) : Position := if path.root = "" then .inside [] else .outside

/-- An error at a path. -/
def failAt {α : Type} (path : FilePath) (x : Except FileError.Cause α) : Except FileError α :=
  x.mapError fun cause => ⟨cause, path.text⟩

/-- The content of the file at a path. -/
def read (d : Directory) (path : FilePath) : Except FileError (List UInt8) :=
  failAt path <|
    if maxPathBytes ≤ path.text.utf8ByteSize then .error .nameTooLong
    else do
      match d.entry? (← d.walk .fault (start path) path.names) with
      | some (.file content) => return content
      | some .directory => throw .isADirectory
      | none => throw .notFound

/-- The names that lead to a file that is written at a path; none if the file is not below the
working directory. The directories on the path are made first, so no file can be where one of them
is. -/
def location (d : Directory) (path : FilePath) : Except FileError (Option (List String)) := do
  let parent ← failAt path.parent (d.walk .make (start path) path.parent.names)
  if let some (.file _) := d.entry? parent then throw ⟨.exists, path.parent.text⟩
  let position ← failAt path (d.walk .make (start path) path.names)
  if path.names.getLast? = some above then throw ⟨.isADirectory, path.text⟩
  match d.entry? position, position with
  | some .directory, _ => throw ⟨.isADirectory, path.text⟩
  | _, .inside names =>
    if (passed (start path) path.parent.names).contains position then
      throw ⟨.isADirectory, path.text⟩
    else return some names
  | _, _ => return none

end Directory

end EndpointAtlas
