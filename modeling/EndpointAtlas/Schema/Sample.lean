import EndpointAtlas.Fault
import EndpointAtlas.Log
import EndpointAtlas.Schema.Reference

/-!
# Sample values

`sample` makes an example value for a schema, always the same one. A declared example wins. Else
the branches of a composite schema are tried in order, objects and arrays are made of samples of
their children, and a primitive schema gives its first enumerated value, its minimum if it is a
number, or the zero of its type.

A branch is passed over when it has no example or runs into itself; a line in the log says so. All
other faults end the sampling.
-/

namespace EndpointAtlas.Schema

/-- The example that a schema declares: `example`, or the first of a list `examples`. -/
def declaredExample? (schema : Members) : Option Value :=
  match schema.get? "example" with
  | some v => some v
  | none =>
    match schema.get? "examples" with
    | some (.list (v :: _)) => some v
    | _ => none

/-- The zero of a type. -/
def zeroValue? : Value → Option Value
  | .str "string" => some (.str "")
  | .str "integer" => some (.int 0)
  | .str "number" => some (.int 0)
  | .str "boolean" => some (.bool false)
  | .str "null" => some .null
  | _ => none

/-- Whether a value can be a key: everything but lists, mappings and sets. -/
def isKey : Value → Bool
  | .scalar _ => true
  | _ => false

/-- Whether a type is a type of numbers. -/
def isNumeric (declared : Value) : Bool := declared = .str "integer" || declared = .str "number"

/-- The sample of a primitive schema. -/
def samplePrimitive (schema : Members) (loc : Location) : Except Fault Value :=
  match schema.get? "enum" with
  | some (.list (v :: _)) => .ok v
  | _ =>
    let declared := primaryType schema
    match (if isNumeric declared then schema.get? "minimum" else none) with
    | some v => .ok v
    | none =>
      if isKey declared then
        match zeroValue? declared with
        | some v => .ok v
        | none => .error (.schema ⟨.unknownType declared, loc⟩)
      else .error (.mistyped declared)

/-- The error in a branch that lets the next branch be tried. -/
def passedOver? : Fault → Option SchemaError
  | .schema e => if e.kind = .noExample ∨ e.kind = .circular then some e else none
  | _ => none

/-- The line that says that a branch was passed over. -/
def passedOverLine (e : SchemaError) (loc : Location) : Log.Line :=
  ⟨.debug, "api_probe.schema.example", "Skipping " ++ loc.text ++ ": " ++ e.message⟩

section

variable {m : Type → Type} [Monad m] [MonadExceptOf Fault m] [MonadLog m]

/-- An error at a location. -/
def failAt {α : Type} (cause : SchemaError.Cause) (loc : Location) : m α :=
  throw (Fault.schema ⟨cause, loc⟩)

mutual

/-- A sample of a schema, with what `follow` makes of references. -/
def sampleWalk (follow : Follow m Value) : Value → Location → m Value
  | .map members, loc =>
    match Members.get? members referenceKeyword with
    | some ref => follow ref loc
    | none =>
      match declaredExample? members with
      | some v => pure v
      | none =>
        match shape members with
        | .composite c => sampleSlot follow (.branches c) members loc
        | .object => sampleSlot follow .properties members loc
        | .array => sampleSlot follow .items members loc
        | .primitive =>
          match samplePrimitive members loc with
          | .ok v => pure v
          | .error e => throw e
  | node, loc => failAt (.notASchema node) loc

/-- The sample that the value of a slot determines. -/
def sampleSlot (follow : Follow m Value) (slot : Slot) :
    List (Scalar × Value) → Location → m Value
  | [], loc =>
    match slot with
    | .items => failAt .noItems loc
    | .branches c => failAt (.noBranch c) loc
    | _ => failAt .noProperties loc
  | (k, v) :: rest, loc =>
    if k = .str slot.keyword then
      match slot, v with
      | .branches c, .list branches => sampleBranches follow c 0 branches loc
      | .branches c, _ => failAt (.noBranch c) loc
      | .items, v => do
        return .list [← sampleWalk follow v (Step.items.from loc)]
      | .properties, .map props => do
        return .map (← sampleProperties follow props loc)
      | _, _ => failAt .noProperties loc
    else sampleSlot follow slot rest loc

/-- The samples of properties, in order. -/
def sampleProperties (follow : Follow m Value) :
    List (Scalar × Value) → Location → m (List (Scalar × Value))
  | [], _ => pure []
  | (k, v) :: rest, loc => do
    let w ← sampleWalk follow v ((Step.property k).from loc)
    return (k, w) :: (← sampleProperties follow rest loc)

/-- The sample of the first branch that has one, from an index on. -/
def sampleBranches (follow : Follow m Value) (c : Composite) (index : Nat) :
    List Value → Location → m Value
  | [], loc => failAt (.noBranch c) loc
  | v :: rest, loc =>
    let here := (Step.branch c index).from loc
    tryCatchThe Fault (sampleWalk follow v here) fun fault =>
      match passedOver? fault with
      | some e => do
        MonadLog.write (passedOverLine e here)
        sampleBranches follow c (index + 1) rest loc
      | none => throw fault

end

end

/-- A sample of the schema at a location. -/
def sampleAt (defs : Members) (node : Value) (loc : Location) : Logged Fault Value :=
  visit (fun e => throw (.schema e)) sampleWalk defs node loc

/-- A sample of a schema. -/
def sample (defs : Members) (node : Value) : Logged Fault Value := sampleAt defs node .top

/-- A sample of the component of a name. -/
def sampleNamed (defs : Members) (name : String) : Logged Fault Value :=
  visitNamed (fun e => throw (.schema e)) sampleWalk defs name

end EndpointAtlas.Schema
