import EndpointAtlas.Schema.Error

/-!
# Faults

`Fault` is all that can stop the work on a description. A fault of an operation is put on record
(`Fault.report?`) and the other operations go on; every other fault ends the work.
-/

namespace EndpointAtlas

/-- The records that are checked field by field. -/
inductive RecordType where
  | parameter
  | body
  | endpoint
  | failure
  deriving DecidableEq, Repr

/-- The name of a record in messages. -/
def RecordType.label : RecordType → String
  | .parameter => "ParamInfo"
  | .body => "Body"
  | .endpoint => "Endpoint"
  | .failure => "BuildFailure"

namespace ValidationError

/-- What is wrong with a field. -/
inductive Problem where
  | missing
  | notText
  | undecodableText
  | notMapping
  | notList
  | notTruthValue
  | unreadableTruthValue
  | unknownPlace
  | notARecord (type : RecordType)
  | frozen
  deriving DecidableEq, Repr

/-- The problem in words, with its short name. -/
def Problem.text : Problem → String
  | .missing => "Field required [type=missing]"
  | .notText => "Input should be a valid string [type=string_type]"
  | .undecodableText => "Input should be a valid string, unable to parse raw data as a unicode " ++
      "string [type=string_unicode]"
  | .notMapping => "Input should be a valid dictionary [type=dict_type]"
  | .notList => "Input should be a valid list [type=list_type]"
  | .notTruthValue => "Input should be a valid boolean [type=bool_type]"
  | .unreadableTruthValue =>
      "Input should be a valid boolean, unable to interpret input [type=bool_parsing]"
  | .unknownPlace => "Input should be 'path', 'query', 'header' or 'cookie' [type=literal_error]"
  | .notARecord type =>
      "Input should be a valid dictionary or instance of " ++ type.label ++ " [type=model_type]"
  | .frozen => "Instance is frozen [type=frozen_instance]"

/-- A problem of the field that the segments lead to. -/
structure Entry where
  field : List String
  problem : Problem
  deriving DecidableEq, Repr

end ValidationError

/-- The problems of a record, in the order of its fields. -/
structure ValidationError where
  type : RecordType
  entries : List ValidationError.Entry
  deriving DecidableEq, Repr

namespace ValidationError

/-- A head line and two lines for each problem. -/
def message (e : ValidationError) : String :=
  let count := e.entries.length
  let head := toString count ++ " validation error" ++ (if count = 1 then "" else "s") ++ " for " ++
    e.type.label
  let lines := e.entries.flatMap fun entry =>
    [".".intercalate entry.field, "  " ++ entry.problem.text]
  "\n".intercalate (head :: lines)

end ValidationError

/-- What can be wrong with a document as a whole. -/
inductive DocumentError where
  | unparsable (file : String)
  | notADescription (source : String)
  | fetchFailed (url reason : String)
  | notJson (url : String)
  | schemasNotMapping
  | missingPaths
  deriving DecidableEq, Repr

/-- The message of a document error. -/
def DocumentError.message : DocumentError → String
  | .unparsable file => "Could not parse " ++ file
  | .notADescription source => source ++ " does not contain an OpenAPI document"
  | .fetchFailed url reason =>
      "Could not fetch document from " ++ Text.quoted url ++ ": " ++ reason
  | .notJson url => "Server at " ++ Text.quoted url ++ " returned non-JSON content"
  | .schemasNotMapping => "'components.schemas' must be a mapping"
  | .missingPaths => "OpenAPI document is missing 'paths'"

/-- What can be wrong with the name of a file. -/
inductive FileError.Cause where
  | notFound
  | exists
  | notADirectory
  | isADirectory
  | nameTooLong
  deriving DecidableEq, Repr

/-- An error on access to a file. -/
structure FileError where
  cause : FileError.Cause
  path : String
  deriving DecidableEq, Repr

namespace FileError

/-- The number of a cause. -/
def Cause.number : Cause → Nat
  | .notFound => 2
  | .exists => 17
  | .notADirectory => 20
  | .isADirectory => 21
  | .nameTooLong => 36

/-- A cause in words. -/
def Cause.text : Cause → String
  | .notFound => "No such file or directory"
  | .exists => "File exists"
  | .notADirectory => "Not a directory"
  | .isADirectory => "Is a directory"
  | .nameTooLong => "File name too long"

/-- The message of a file error. -/
def message (e : FileError) : String :=
  "[Errno " ++ toString e.cause.number ++ "] " ++ e.cause.text ++ ": " ++ Text.quoted e.path

end FileError

/-- What can be wrong with a scalar of a document: it is not of the type it is tagged with, it is no
word of the type, it is empty, it has not the form of the type, a number in it is too large, or there
is a collection in its place. -/
inductive ScalarError where
  | notOfType
  | unknownWord
  | empty
  | noMatch
  | tooLarge
  | notText
  deriving DecidableEq, Repr

/-- What can stop the work on a description. -/
inductive Fault where
  | schema (e : SchemaError)
  | invalid (e : ValidationError)
  | document (e : DocumentError)
  | file (e : FileError)
  | scalar (e : ScalarError)
  /-- A value of a type that the work at hand cannot take, such as a list where a key is needed. -/
  | mistyped (v : Value)
  /-- A value that was asked for a part which values of its type do not have. -/
  | partless (v : Value)
  /-- A value that contains itself, where all of it is needed. -/
  | endless
  /-- Bytes that are not UTF-8. -/
  | undecodable
  /-- An address that is not a URL. -/
  | invalidUrl
  /-- A path that no file can have. -/
  | unusablePath
  deriving DecidableEq, Repr

namespace Fault

/-- The kind and the message under which a fault of an operation is put on record; none for a fault
that ends the work. -/
def report? : Fault → Option (String × String)
  | .schema e => some (e.kind.label, e.message)
  | .invalid e => some ("ValidationError", e.message)
  | _ => none

end Fault

end EndpointAtlas
