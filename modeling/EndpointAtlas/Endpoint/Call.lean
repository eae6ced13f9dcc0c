import EndpointAtlas.Endpoint.Record
import EndpointAtlas.Schema.Sample

/-!
# Example calls

An example call gives arguments to an endpoint. The first call of an endpoint passes every
parameter; each further call passes the required ones and one optional parameter, so that the effect
of each optional parameter can be seen by itself.
-/

namespace EndpointAtlas.Call

/-- The declared example of a value, else a sample of its schema. Nothing is looked up, since the
schema is inlined. -/
def exampleOf (declared : Value) (schema : Members) : Logged Fault Value :=
  if declared = .null then Schema.sample [] (.map schema) else pure declared

/-- The example value of a parameter. -/
def ofParameter (p : Parameter) : Logged Fault Value := exampleOf p.sample p.schema

/-- The example value of a body. -/
def ofBody (b : Body) : Logged Fault Value := exampleOf b.sample b.schema

/-- The parameters of each call. -/
def variants (params : List Parameter) : List (List Parameter) :=
  let required := params.filter (·.required)
  let optional := params.filter (!·.required)
  (required ++ optional) :: optional.map fun p => required ++ [p]

/-- Arguments with one more, in the group of its place. -/
def passed (call : Members) (p : Parameter) (v : Value) : Members :=
  let group := match call.getD p.place.label with
    | .map members => members
    | _ => []
  call.set p.place.label (.map (Members.set group p.name v))

/-- Arguments with those for further parameters, in order. -/
def passAll : Members → List Parameter → Logged Fault Members
  | call, [] => pure call
  | call, p :: rest => do
    let v ← ofParameter p
    passAll (passed call p v) rest

/-- The mark of a call whose answer is a stream. -/
def streamMark : Members := [(.str "parse_as", .str "stream")]

/-- The call that passes some parameters. -/
def render (params : List Parameter) (body : Option Value) (streaming : Bool) :
    Logged Fault Members := do
  let call ← passAll [] params
  let body : Members := match body with
    | some v => [(.str "body", v)]
    | none => []
  return call ++ body ++ if streaming then streamMark else []

/-- The calls that pass the parameters of each variant, in order. -/
def renderAll (body : Option Value) (streaming : Bool) :
    List (List Parameter) → Logged Fault (List Members)
  | [] => pure []
  | params :: rest => do
    let call ← render params body streaming
    return call :: (← renderAll body streaming rest)

/-- The example calls of an endpoint. -/
def examples (params : List Parameter) (requestBody : Option Body) (streaming : Bool) :
    Logged Fault (List Members) := do
  let body ← match requestBody with
    | some b => some <$> ofBody b
    | none => pure none
  renderAll body streaming (variants params)

end EndpointAtlas.Call
