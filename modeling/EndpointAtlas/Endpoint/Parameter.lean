import EndpointAtlas.Endpoint.Check
import EndpointAtlas.Endpoint.Field
import EndpointAtlas.Log
import EndpointAtlas.Value.Equality

/-!
# Parameters of an operation

`Parameter.merge` joins the parameters that a path item shares among its operations with those of an
operation, which win. `Parameter.ofValues` describes a list of parameters; references among them
are passed over.
-/

namespace EndpointAtlas.Parameter

/-- What tells parameters apart: the name and the place, as they are written. -/
structure Identity where
  name : Scalar
  place : Scalar
  deriving DecidableEq, Repr

/-- Whether two identities are equal as keys. -/
def Identity.same (a b : Identity) : Bool := a.name.same b.name && a.place.same b.place

/-- A value as a key. -/
def asKey : Value → Except Fault Scalar
  | .scalar s => .ok s
  | v => .error (.mistyped v)

/-- The identity of a parameter; none for what is a reference or no parameter at all. -/
def identity? : Value → Except Fault (Option Identity)
  | .map fields =>
    if Members.has fields Schema.referenceKeyword then .ok none
    else do
      let name ← asKey (Members.getD fields "name")
      let place ← asKey (Members.getD fields "in")
      return some ⟨name, place⟩
  | _ => .ok none

/-- The identities of the parameters in a list. -/
def identities : List Value → Except Fault (List Identity)
  | [] => .ok []
  | p :: rest => do
    match ← identity? p with
    | some id => return id :: (← identities rest)
    | none => identities rest

/-- The entries of a list that are not one of the given parameters. -/
def without (taken : List Identity) : List Value → Except Fault (List Value)
  | [] => .ok []
  | p :: rest => do
    match ← identity? p with
    | some id =>
      if taken.any id.same then without taken rest else return p :: (← without taken rest)
    | none => return p :: (← without taken rest)

/-- Shared parameters without those that an operation's own parameters override, followed by the
own ones. -/
def merge (shared own : List Value) : Except Fault (List Value) := do
  let taken ← identities own
  let kept ← without taken shared
  return kept ++ own

/-- The entries of a shared parameter list as they are gone through: those of a list, the keys of a
mapping, the characters of a text. Nothing given means no entries. -/
def entries (v : Value) : Except Fault (List Value) :=
  if !v.isTruthy then .ok []
  else match v with
    | .list items => .ok items
    | .map members => .ok (members.map fun (k, _) => .scalar k)
    | .set items => .ok (items.map .scalar)
    | .str s => .ok (s.toList.map fun c => .str c.toString)
    | .scalar (.bytes bs) => .ok (bs.map fun b => .int b.toNat)
    | v => .error (.mistyped v)

/-- The parameter that a mapping describes. -/
def ofFields (defs fields : Members) : Except Fault Parameter := do
  let schema ← inlinedSchema defs fields
  Checked.toExcept .parameter <|
    Parameter.mk <$> (Check.text (fields.getD "name")).inField "name" <*>
      (Check.place ((fields.get? "in").getD (.str "query"))).inField "location" <*>
      pure (fields.getD "required").isTruthy <*>
      (Check.mapping schema).inField "param_schema" <*>
      pure (declaredExample fields) <*>
      pure (Schema.referencedName? (declaredSchema fields)) <*>
      (Check.text ((fields.get? "description").getD (.str ""))).inField "description"

/-- The line that says that a reference was passed over. -/
def referenceLine (ref : Value) : Log.Line :=
  ⟨.debug, "api_probe.endpoint.builder", "Skipping parameter reference " ++ ref.text⟩

/-- The parameters of a list from an index on. -/
def ofValuesFrom (defs : Members) : Nat → List Value → Logged Fault (List Parameter)
  | _, [] => pure []
  | i, v :: rest =>
    match v with
    | .map fields =>
      match Members.get? fields Schema.referenceKeyword with
      | some ref => do
        MonadLog.write (referenceLine ref)
        ofValuesFrom defs (i + 1) rest
      | none => do
        let p ← Logged.ofExcept (ofFields defs fields)
        return p :: (← ofValuesFrom defs (i + 1) rest)
    | _ => throw (.schema ⟨.parameterNotObject, Location.top / "parameters" / toString i⟩)

/-- The parameters of a list. -/
def ofValues (defs : Members) (params : List Value) : Logged Fault (List Parameter) :=
  ofValuesFrom defs 0 params

end EndpointAtlas.Parameter
