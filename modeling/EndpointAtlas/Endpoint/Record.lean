import EndpointAtlas.Value.Basic

/-!
# Records of an endpoint

An `Endpoint` describes one operation completely: its schemas are inlined, so that it can be
written out and sampled without the document it comes from. A `Failure` stands for an operation that
could not be described. `toMembers` writes a record as a mapping with its fields in order.
-/

namespace EndpointAtlas

/-- Where a parameter is passed. -/
inductive Place where
  | path
  | query
  | header
  | cookie
  deriving DecidableEq, Repr

/-- The name of a place. -/
def Place.label : Place → String
  | .path => "path"
  | .query => "query"
  | .header => "header"
  | .cookie => "cookie"

/-- One parameter of an operation. A null example means that none is declared. -/
structure Parameter where
  name : String
  place : Place
  required : Bool
  schema : Members
  sample : Value
  refName : Option String
  description : String
  deriving DecidableEq, Repr

/-- What a request or a response carries, in the media type that was picked. -/
structure Body where
  mediaType : String
  schema : Members
  streaming : Bool
  sample : Value
  refName : Option String
  deriving DecidableEq, Repr

/-- One operation, with all that is needed to call it. A response without content has no body. -/
structure Endpoint where
  operationId : String
  methodName : String
  title : String
  method : String
  path : String
  params : List Parameter
  requestBody : Option Body
  responseBodies : List (String × Option Body)
  streaming : Bool
  tags : List String
  exampleParams : List Members
  deriving DecidableEq, Repr

/-- An operation that was left out of the table. -/
structure Failure where
  path : String
  method : String
  operationId : Option String
  kind : String
  error : String
  deriving DecidableEq, Repr

/-- A text that may be absent. -/
def Value.ofText? (s : Option String) : Value :=
  match s with
  | some s => .str s
  | none => .null

namespace Parameter

/-- The fields of a parameter. -/
def toMembers (p : Parameter) : Members :=
  [(.str "name", .str p.name), (.str "location", .str p.place.label),
    (.str "required", .bool p.required), (.str "param_schema", .map p.schema),
    (.str "example", p.sample), (.str "ref_name", .ofText? p.refName),
    (.str "description", .str p.description)]

end Parameter

namespace Body

/-- The fields of a body. -/
def toMembers (b : Body) : Members :=
  [(.str "media_type", .str b.mediaType), (.str "body_schema", .map b.schema),
    (.str "streaming", .bool b.streaming), (.str "example", b.sample),
    (.str "ref_name", .ofText? b.refName)]

/-- A body that may be absent. -/
def toValue? (b : Option Body) : Value :=
  match b with
  | some b => .map b.toMembers
  | none => .null

end Body

namespace Endpoint

/-- The method and the path, as an endpoint is called in messages. -/
def label (e : Endpoint) : String := e.method ++ " " ++ e.path

/-- The fields of an endpoint. -/
def toMembers (e : Endpoint) : Members :=
  [(.str "operation_id", .str e.operationId), (.str "method_name", .str e.methodName),
    (.str "title", .str e.title), (.str "method", .str e.method), (.str "path", .str e.path),
    (.str "params", .list (e.params.map fun p => .map p.toMembers)),
    (.str "request_body", Body.toValue? e.requestBody),
    (.str "response_bodies",
      .map (e.responseBodies.map fun (code, body) => (.str code, Body.toValue? body))),
    (.str "streaming", .bool e.streaming), (.str "tags", .list (e.tags.map .str)),
    (.str "example_params", .list (e.exampleParams.map .map))]

/-- The schema of each response, null for one without content. -/
def responseSchemas (e : Endpoint) : Members :=
  e.responseBodies.map fun (code, body) =>
    (.str code, match body with | some b => .map b.schema | none => .null)

/-- The media type of each response that has content. -/
def responseMediaTypes (e : Endpoint) : Members :=
  e.responseBodies.filterMap fun (code, body) => body.map fun b => (.str code, .str b.mediaType)

end Endpoint

namespace Failure

/-- The fields of a failure. -/
def toMembers (f : Failure) : Members :=
  [(.str "path", .str f.path), (.str "method", .str f.method),
    (.str "operation_id", .ofText? f.operationId), (.str "kind", .str f.kind),
    (.str "error", .str f.error)]

end Failure

end EndpointAtlas
