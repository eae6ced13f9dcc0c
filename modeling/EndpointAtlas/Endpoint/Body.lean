import EndpointAtlas.Endpoint.Check
import EndpointAtlas.Endpoint.Field
import EndpointAtlas.Endpoint.Media

/-!
# Bodies of requests and responses

`Body.ofContent` describes a content map by the media type that is picked from it. `Body.ofRequest`
and `Body.ofResponses` read the request body and the responses of an operation.
-/

namespace EndpointAtlas.Body

/-- The body that an entry of a content map describes. -/
def ofEntry (defs : Members) (mediaType : String) (entry : Members) : Except Fault Body := do
  let schema ← inlinedSchema defs entry
  Checked.toExcept .body <|
    Body.mk mediaType <$> (Check.mapping schema).inField "body_schema" <*>
      pure (Media.isStreaming mediaType) <*> pure (declaredExample entry) <*>
      pure (Schema.referencedName? (declaredSchema entry))

/-- The body that a content map describes, if it lists a media type. -/
def ofContent (defs : Members) (content : Value) (loc : Location) : Except Fault (Option Body) :=
  let describe : Except Fault (Option Body) := do
    match ← Media.pick content with
    | none => return none
    | some (mediaType, .map entry) => return some (← ofEntry defs mediaType entry)
    | some (mediaType, _) =>
      throw (.schema ⟨.mediaTypeNotObject, loc / "content" / mediaType⟩)
  match content with
  | .null => describe
  | .map _ => describe
  | _ => .error (.schema ⟨.contentNotMap, loc / "content"⟩)

/-- The body of a request, if one is given. -/
def ofRequest (defs : Members) (request : Value) : Except Fault (Option Body) :=
  let loc := Location.top / "requestBody"
  if !request.isTruthy then .ok none
  else match request with
    | .map fields =>
      match Members.get? fields Schema.referenceKeyword with
      | some ref => .error (.schema ⟨.unsupportedReference ref, loc⟩)
      | none => ofContent defs (Members.getD fields "content") loc
    | _ => .error (.schema ⟨.requestBodyNotObject, loc⟩)

/-- The body of one response, none for null. -/
def ofResponse (defs : Members) (response : Value) (loc : Location) :
    Except Fault (Option Body) :=
  match response with
  | .null => .ok none
  | .map fields =>
    match Members.get? fields Schema.referenceKeyword with
    | some ref => .error (.schema ⟨.unsupportedReference ref, loc⟩)
    | none => ofContent defs (Members.getD fields "content") loc
  | _ => .error (.schema ⟨.responseNotObject, loc⟩)

/-- Pairs with a value under a code: in the place of the value it had, else at the end. -/
def setCode (code : String) (body : Option Body) :
    List (String × Option Body) → List (String × Option Body)
  | [] => [(code, body)]
  | (c, b) :: rest => if c = code then (c, body) :: rest else (c, b) :: setCode code body rest

/-- The bodies of responses added to those under other codes. -/
def addResponses (defs : Members) :
    List (String × Option Body) → Members → Except Fault (List (String × Option Body))
  | bodies, [] => .ok bodies
  | bodies, (code, response) :: rest => do
    let body ← ofResponse defs response (Location.top / "responses" / code.text)
    addResponses defs (setCode code.text body bodies) rest

/-- The bodies of the responses of an operation, by status code. -/
def ofResponses (defs : Members) (responses : Value) :
    Except Fault (List (String × Option Body)) :=
  match responses with
  | .null => .ok []
  | .map members => addResponses defs [] members
  | _ => .error (.schema ⟨.responsesNotMap, Location.top / "responses"⟩)

end EndpointAtlas.Body
