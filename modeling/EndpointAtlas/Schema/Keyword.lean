import EndpointAtlas.Value.Literal

/-!
# Keywords of a schema

A schema is a mapping whose members are named by keywords. `Slot` lists the keywords whose values
hold further schemas, `primaryType` reads the declared type and `shape` tells how a schema is built.
-/

namespace EndpointAtlas.Schema

/-- The keywords that list alternatives or parts of a composite schema. -/
inductive Composite where
  | oneOf
  | anyOf
  | allOf
  deriving DecidableEq, Repr

namespace Composite

/-- The keywords in the order in which they are looked for. -/
def all : List Composite := [.oneOf, .anyOf, .allOf]

/-- The keyword as it is written. -/
def keyword : Composite → String
  | .oneOf => "oneOf"
  | .anyOf => "anyOf"
  | .allOf => "allOf"

end Composite

/-- The members of a schema that hold further schemas. -/
inductive Slot where
  | properties
  | items
  | additionalProperties
  | branches (c : Composite)
  deriving DecidableEq, Repr

namespace Slot

/-- The slots in the order in which they are visited. -/
def all : List Slot :=
  [.properties, .items, .additionalProperties, .branches .oneOf, .branches .anyOf, .branches .allOf]

/-- The keyword as it is written. -/
def keyword : Slot → String
  | .properties => "properties"
  | .items => "items"
  | .additionalProperties => "additionalProperties"
  | .branches c => c.keyword

theorem mem_all (s : Slot) : s ∈ all := by
  rcases s with _ | _ | _ | (_ | _ | _) <;> simp [all]

end Slot

/-- The declared type of a schema: of a list of types the first that is not `null`, and null when
none is declared. -/
def primaryType (schema : Members) : Value :=
  match schema.get? "type" with
  | some (.list types) =>
    match types.find? (· ≠ .str "null") with
    | some t => t
    | none => if types.isEmpty then .null else .str "null"
  | some t => t
  | none => .null

/-- The items of a list that has some. -/
def nonemptyList? : Option Value → Option (List Value)
  | some (.list []) => none
  | some (.list items) => some items
  | _ => none

/-- The first composite keyword with branches, and the branches. -/
def compositeBranches? (schema : Members) : Option (Composite × List Value) :=
  Composite.all.findSome? fun c => (nonemptyList? (schema.get? c.keyword)).map (c, ·)

/-- How a schema that is not a reference is built. -/
inductive Shape where
  | composite (c : Composite)
  | object
  | array
  | primitive
  deriving DecidableEq, Repr

/-- The shape of a schema: branches come first, then the declared type decides. -/
def shape (schema : Members) : Shape :=
  match compositeBranches? schema with
  | some (c, _) => .composite c
  | none =>
    if primaryType schema = .str "object" then .object
    else if primaryType schema = .str "array" then .array
    else .primitive

/-- What a schema node is. -/
inductive Kind where
  | reference
  | composite
  | object
  | array
  | primitive
  deriving DecidableEq, Repr

/-- The name of a kind. -/
def Kind.label : Kind → String
  | .reference => "reference"
  | .composite => "composite"
  | .object => "object"
  | .array => "array"
  | .primitive => "primitive"

/-- The keyword of a reference. -/
def referenceKeyword : String := "$ref"

/-- Whether a node stands for a named schema. -/
def isReference : Value → Bool
  | .map members => Members.has members referenceKeyword
  | _ => false

/-- The kind of a node. What is not a mapping counts as primitive. -/
def kind : Value → Kind
  | .map members =>
    if Members.has members referenceKeyword then .reference
    else match shape members with
      | .composite _ => .composite
      | .object => .object
      | .array => .array
      | .primitive => .primitive
  | _ => .primitive

end EndpointAtlas.Schema
