import EndpointAtlas.Document.FilePath
import EndpointAtlas.Document.Page
import EndpointAtlas.Log
import EndpointAtlas.Yaml.Document

/-!
# Loading a document

A document comes from an address, as JSON, or from a file, as YAML, of which JSON is a part. `load`
gives its members or the fault that prevents it. `Surroundings` is all that loading depends on
besides the name of the source.
-/

namespace EndpointAtlas

/-- What can be reached: files to read, files to write and addresses to fetch. A file that cannot be
written gives an error. -/
structure Surroundings where
  read : FilePath → Except FileError (List UInt8)
  write? : FilePath → Option FileError
  fetch : String → Reply

namespace Document

/-- Whether a source is an address. -/
def isUrl (source : String) : Bool :=
  Page.schemes.any fun scheme => scheme.toList.isPrefixOf source.toList

/-- Characters with all line ends as line feeds. -/
def plainLines : List Char → List Char
  | '\r' :: '\n' :: rest => '\n' :: plainLines rest
  | '\r' :: rest => '\n' :: plainLines rest
  | c :: rest => c :: plainLines rest
  | [] => []

/-- The value of the content of a file. -/
def ofContent (path : FilePath) (content : List UInt8) : Except Fault Value :=
  match Text.decode content with
  | none => .error .undecodable
  | some cs =>
    match Yaml.read (plainLines cs) with
    | .ok v => .ok v
    | .error .malformed => .error (.document (.unparsable path.text))
    | .error (.scalar e) => .error (.scalar e)

/-- The value of a file. -/
def ofFile (s : Surroundings) (path : FilePath) : Except Fault Value :=
  if path.isUsable then do
    let content ← (s.read path).mapError .file
    ofContent path content
  else .error .unusablePath

/-- The line that says that an address is fetched. -/
def fetchLine (url : String) : Log.Line := ⟨.debug, "api_probe.loader", "Fetching " ++ url⟩

/-- The value of a source. -/
def ofSource (s : Surroundings) (source : String) : Logged Fault Value :=
  if isUrl source then do
    MonadLog.write (fetchLine source)
    Logged.ofExcept ((s.fetch source).document source)
  else Logged.ofExcept (ofFile s (FilePath.ofText source))

/-- The members of the document of a source. -/
def load (s : Surroundings) (source : String) : Logged Fault Members := do
  match ← ofSource s source with
  | .map members => return members
  | _ => throw (.document (.notADescription source))

end Document

end EndpointAtlas
