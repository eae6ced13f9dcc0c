import EndpointAtlas.Schema.Location

/-!
# Errors of a description

What can be wrong at a location of a schema or an operation. A `Cause` says what was found there;
`SchemaError.message` is the only place that puts it into words.
-/

namespace EndpointAtlas

namespace SchemaError

/-- The families of errors. -/
inductive Kind where
  | unresolvedReference
  | missingStructure
  | noExample
  | circular
  | malformed
  deriving DecidableEq, Repr

/-- What is wrong at a location. -/
inductive Cause where
  /-- A reference that does not name a component. -/
  | unsupportedReference (ref : Value)
  /-- A reference to a component that does not exist. -/
  | unknownReference (ref : String)
  /-- A component that was asked for by name and does not exist. -/
  | unknownComponent (name : String)
  /-- A component that is reached again while it is being opened. -/
  | circular (chain : List String)
  | objectWithoutProperties
  | arrayWithoutItems
  | notASchema (node : Value)
  | noBranch (c : Schema.Composite)
  | noProperties
  | noItems
  | unknownType (declared : Value)
  | parameterNotObject
  | contentNotMap
  | mediaTypeNotObject
  | requestBodyNotObject
  | responsesNotMap
  | responseNotObject
  | fieldNotList (field : String)
  | operationIdNotText (id : Value)
  | duplicateOperationId (id holder : String)
  deriving DecidableEq, Repr

/-- The family of a cause. -/
def Cause.kind : Cause → Kind
  | .unsupportedReference _ | .unknownReference _ | .unknownComponent _ => .unresolvedReference
  | .circular _ => .circular
  | .objectWithoutProperties | .arrayWithoutItems => .missingStructure
  | .notASchema _ | .noBranch _ | .noProperties | .noItems | .unknownType _ => .noExample
  | _ => .malformed

/-- What is wrong, in words. -/
def Cause.text : Cause → String
  | .unsupportedReference ref => "Unsupported $ref: " ++ ref.text
  | .unknownReference ref => "Unresolved $ref: " ++ ref
  | .unknownComponent name => "Schema not found: " ++ name
  | .circular chain => "Circular $ref detected: " ++ " -> ".intercalate chain
  | .objectWithoutProperties => "Object schema without .properties"
  | .arrayWithoutItems => "Array schema without .items"
  | .notASchema node => "Not a schema object: " ++ node.literal
  | .noBranch c => "No valid example found in " ++ c.keyword
  | .noProperties => "Missing .properties and .example"
  | .noItems => "Missing .items and .example"
  | .unknownType declared => "No example for unknown primitive type " ++ declared.literal
  | .parameterNotObject => "Parameter must be an object"
  | .contentNotMap => "Content must be a map of media types"
  | .mediaTypeNotObject => "Media type entry must be an object"
  | .requestBodyNotObject => "Request body must be an object"
  | .responsesNotMap => "Responses must be a map of status codes"
  | .responseNotObject => "Response must be an object"
  | .fieldNotList field => "'" ++ field ++ "' must be a list"
  | .operationIdNotText id => "operationId must be a string, got " ++ id.literal
  | .duplicateOperationId id holder =>
      "Duplicate operationId " ++ Text.quoted id ++ ", already used by " ++ holder

end SchemaError

/-- An error at a location of a schema or an operation. -/
structure SchemaError where
  cause : SchemaError.Cause
  location : Location
  deriving DecidableEq, Repr

namespace SchemaError

/-- The family of an error. -/
def kind (e : SchemaError) : Kind := e.cause.kind

/-- The name of a family in a report. -/
def Kind.label : Kind → String
  | .unresolvedReference => "UnresolvedReference"
  | .missingStructure => "MissingStructure"
  | .noExample => "NoExampleAvailable"
  | .circular => "CyclicSchema"
  | .malformed => "MalformedOperation"

/-- The message of an error: what is wrong, and where. -/
def message (e : SchemaError) : String := e.cause.text ++ " at " ++ e.location.text

end SchemaError

end EndpointAtlas
