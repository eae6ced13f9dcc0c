import EndpointAtlas.Schema.Inline
import EndpointAtlas.Fault

/-!
# Fields of operations

What several parts of an operation have in common: list fields, declared examples and schemas.
-/

namespace EndpointAtlas

/-- The items of a list field of an operation or a path item. A field that is missing or empty in
any way has no items. -/
def listField (members : Members) (key : String) : Except SchemaError (List Value) :=
  let v := members.getD key
  if !v.isTruthy then .ok []
  else match v with
    | .list items => .ok items
    | _ => .error ⟨.fieldNotList key, Location.top / key⟩

/-- The `value` of the first entry that has one. -/
def firstValue? (entries : Members) : Option Value :=
  entries.findSome? fun (_, entry) =>
    match entry with
    | .map fields => Members.get? fields "value"
    | _ => none

/-- The example that a parameter or a media type declares: `example`, or the first `value` in a map
of `examples`. It is null when there is none. -/
def declaredExample (members : Members) : Value :=
  match members.get? "example" with
  | some v => v
  | none =>
    match members.get? "examples" with
    | some (.map entries) => (firstValue? entries).getD .null
    | _ => .null

/-- The schema of a parameter or a media type, the empty one when none is given. -/
def declaredSchema (members : Members) : Value :=
  let v := members.getD "schema"
  if v.isTruthy then v else .map []

/-- A declared schema without references. -/
def inlinedSchema (defs : Members) (members : Members) : Except Fault Value :=
  (Schema.inline defs (declaredSchema members)).mapError .schema

end EndpointAtlas
