import EndpointAtlas.Endpoint.Body
import EndpointAtlas.Endpoint.Call
import EndpointAtlas.Endpoint.Name
import EndpointAtlas.Endpoint.Parameter
import EndpointAtlas.Text.Upper

/-!
# Describing an operation

`Operation` is a member of a path item whose key is an HTTP method, and `Operation.describe` makes
the endpoint of it. An operation without an id has none.
-/

namespace EndpointAtlas

/-- An operation: its path, the method as it is written, the operation itself and the parameters
that its path shares. -/
structure Operation where
  path : Value
  method : Value
  content : Value
  shared : Value
  deriving DecidableEq, Repr

namespace Operation

/-- The id under which an operation is known, null when there is none. -/
def id (op : Operation) : Value :=
  match op.content with
  | .map fields => Members.getD fields "operationId"
  | _ => .null

/-- The first of some values that is given, else a text. -/
def firstGiven (values : List Value) (otherwise : String) : Value :=
  (values.find? Value.isTruthy).getD (.str otherwise)

/-- A method in upper case. -/
def upperMethod : Value → Except Fault String
  | .str s => .ok (Text.upper s)
  | v => .error (.partless v)

/-- Whether the body of the response `200` is a stream. -/
def isStreaming (responses : List (String × Option Body)) : Bool :=
  match responses.lookup "200" with
  | some (some body) => body.streaming
  | _ => false

/-- The endpoint of an operation with an id. -/
def describeAs (defs : Members) (op : Operation) (fields : Members) (id : String) :
    Logged Fault Endpoint := do
  let own ← Logged.ofExcept ((listField fields "parameters").mapError .schema)
  let merged ← Logged.ofExcept (do Parameter.merge (← Parameter.entries op.shared) own)
  let params ← Parameter.ofValues defs merged
  let requestBody ← Logged.ofExcept (Body.ofRequest defs (fields.getD "requestBody"))
  let responses ← Logged.ofExcept (Body.ofResponses defs (fields.getD "responses"))
  let streaming := isStreaming responses
  let title := firstGiven [fields.getD "summary", fields.getD "description"] id
  let method ← Logged.ofExcept (upperMethod op.method)
  let tags ← Logged.ofExcept ((listField fields "tags").mapError .schema)
  let calls ← Call.examples params requestBody streaming
  Logged.ofExcept <| Checked.toExcept .endpoint <|
    (fun title path tags => Endpoint.mk id (camelCase id) title method path params requestBody
      responses streaming tags calls) <$>
      (Check.text title).inField "title" <*> (Check.text op.path).inField "path" <*>
      (Check.list Check.text (.list tags)).inField "tags"

/-- The endpoint of an operation, none when it has no id. -/
def describe (defs : Members) (op : Operation) : Logged Fault (Option Endpoint) :=
  match op.content with
  | .map fields =>
    let id := Members.getD fields "operationId"
    if !id.isTruthy then pure none
    else match id with
      | .str id => some <$> describeAs defs op fields id
      | id => throw (.schema ⟨.operationIdNotText id, Location.top / "operationId"⟩)
  | _ => pure none

end Operation

end EndpointAtlas
