import EndpointAtlas.Command.Glob
import EndpointAtlas.Endpoint.Record
import EndpointAtlas.Text.Blank
import EndpointAtlas.Text.Upper

/-!
# Selecting endpoints

A selection pattern is a path pattern, or a method and a path pattern with a blank between them. An
endpoint is selected if one of the patterns fits it, or if there is none.
-/

namespace EndpointAtlas

/-- A pattern for endpoints: a method in upper case, empty for any, and a pattern for the path. -/
structure Pattern where
  method : String
  path : String
  deriving DecidableEq, Repr

namespace Pattern

/-- The text before the last blank and the text behind it. Without a blank nothing is before. -/
def splitLast (cs : List Char) : List Char × List Char :=
  let backwards := cs.reverse
  let last := backwards.takeWhile (· ≠ ' ')
  ((backwards.drop (last.length + 1)).reverse, last.reverse)

/-- The pattern of a text. -/
def ofText (s : String) : Pattern :=
  let (method, path) := splitLast (Text.trim Text.isBlank s.toList)
  ⟨Text.upper (String.ofList method), String.ofList path⟩

/-- Whether a pattern fits a method and a path. -/
def fits (p : Pattern) (method path : String) : Bool :=
  (p.method = "" || p.method = method) && Glob.accepts p.path path

end Pattern

/-- Whether an endpoint is selected by patterns. -/
def isSelected (patterns : List String) (method path : String) : Bool :=
  patterns.isEmpty || patterns.any fun s => (Pattern.ofText s).fits method path

/-- The endpoints that patterns select, in order. -/
def selectEndpoints (patterns : List String) (endpoints : List Endpoint) : List Endpoint :=
  endpoints.filter fun e => isSelected patterns e.method e.path

end EndpointAtlas
