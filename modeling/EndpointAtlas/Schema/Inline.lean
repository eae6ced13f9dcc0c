import EndpointAtlas.Schema.Reference

/-!
# Inlining

`inline` replaces every reference that can be reached from a schema by the schema it stands for. All
else stays: the members of a schema keep their order, and only the values of slots change.

`expand` is the walk itself. It visits the slots in the order of `Slot.all` whatever the order of
the members, and puts the results into their places at the end.
-/

namespace EndpointAtlas.Schema

/-- The keywords besides `properties` that allow an object schema to have none. -/
def openObjectKeywords : List String :=
  ["additionalProperties", "oneOf", "anyOf", "allOf", "example", "examples"]

/-- What an object or array schema lacks, if it lacks something. -/
def missingStructure? (schema : Members) : Option SchemaError.Cause :=
  match shape schema with
  | .object =>
    if schema.has "properties" || openObjectKeywords.any schema.has then none
    else some .objectWithoutProperties
  | .array => if schema.has "items" then none else some .arrayWithoutItems
  | _ => none

/-- The members with the values of some slots replaced. -/
def overlay (replaced : List (Slot × Option Value)) (members : Members) : Members :=
  members.map fun (k, v) =>
    match replaced.find? fun (slot, _) => k = .str slot.keyword with
    | some (_, some w) => (k, w)
    | _ => (k, v)

section

variable {m : Type → Type} [Monad m]

mutual

/-- A schema with every reference in it replaced by what `follow` makes of it. -/
def expand (raise : SchemaError → m Value) (follow : Follow m Value) : Value → Location → m Value
  | .map members, loc =>
    match Members.get? members referenceKeyword with
    | some ref => follow ref loc
    | none =>
      match missingStructure? members with
      | some cause => raise ⟨cause, loc⟩
      | none => do
        let replaced ← Slot.all.mapM fun slot => do
          return (slot, ← expandSlot raise follow slot members loc)
        return .map (overlay replaced members)
  | node, _ => pure node

/-- The new value of a slot; none when the schema has no schemas there. -/
def expandSlot (raise : SchemaError → m Value) (follow : Follow m Value) (slot : Slot) :
    List (Scalar × Value) → Location → m (Option Value)
  | [], _ => pure none
  | (k, v) :: rest, loc =>
    if k = .str slot.keyword then
      match slot, v with
      | .properties, .map props => do
        return some (.map (← expandProperties raise follow props loc))
      | .items, v => some <$> expand raise follow v (Step.items.from loc)
      | .additionalProperties, .map extra =>
        some <$> expand raise follow (.map extra) (Step.additionalProperties.from loc)
      | .branches c, .list branches => do
        return some (.list (← expandBranches raise follow c 0 branches loc))
      | _, _ => pure none
    else expandSlot raise follow slot rest loc

/-- The schemas of properties, in order. -/
def expandProperties (raise : SchemaError → m Value) (follow : Follow m Value) :
    List (Scalar × Value) → Location → m (List (Scalar × Value))
  | [], _ => pure []
  | (k, v) :: rest, loc => do
    let w ← expand raise follow v ((Step.property k).from loc)
    return (k, w) :: (← expandProperties raise follow rest loc)

/-- The branches of a composite keyword from an index on, in order. -/
def expandBranches (raise : SchemaError → m Value) (follow : Follow m Value) (c : Composite)
    (index : Nat) : List Value → Location → m (List Value)
  | [], _ => pure []
  | v :: rest, loc => do
    let w ← expand raise follow v ((Step.branch c index).from loc)
    return w :: (← expandBranches raise follow c (index + 1) rest loc)

end

end

/-- A schema without references, equivalent to the one at a location. -/
def inlineAt (defs : Members) (node : Value) (loc : Location) : Except SchemaError Value :=
  visit .error (expand .error) defs node loc

/-- A schema without references, equivalent to the given one. -/
def inline (defs : Members) (node : Value) : Except SchemaError Value := inlineAt defs node .top

/-- The component of a name without references. -/
def inlineNamed (defs : Members) (name : String) : Except SchemaError Value :=
  visitNamed .error (expand .error) defs name

end EndpointAtlas.Schema
