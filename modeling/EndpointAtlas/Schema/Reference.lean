import EndpointAtlas.Schema.Error

/-!
# References to components

A description names its schemas: a component is a member of the mapping of definitions, and a
reference is a mapping with the member `$ref`, whose text is the component prefix followed by the
name. Names are not empty and hold no slash.

1. `componentName?` reads a reference text, `componentReference` writes it.
2. `resolve` finds what a reference stands for.
3. `visitWithin` lets a walk over schemas open references, never one component inside itself.
-/

namespace EndpointAtlas.Schema

/-- The text before the name of a component. -/
def componentPrefix : String := "#/components/schemas/"

/-- The component that a reference text names. -/
def componentName? (ref : String) : Option String :=
  match componentPrefix.toList.isPrefixOf? ref.toList with
  | some name => if name.isEmpty || name.contains '/' then none else some (String.ofList name)
  | none => none

/-- A reference to a component. -/
def componentReference (name : String) : Value :=
  .map [(.str referenceKeyword, .str (componentPrefix ++ name))]

/-- The component that the value of `$ref` names. -/
def componentName (ref : Value) (loc : Location) : Except SchemaError String :=
  let named := match ref with
    | .str s => componentName? s
    | _ => none
  match named with
  | some name => .ok name
  | none => .error ⟨.unsupportedReference (.str ref.text), loc⟩

/-- The schema that the value of `$ref` stands for, with the name of the component. -/
def resolveNamed (defs : Members) (ref : Value) (loc : Location) :
    Except SchemaError (String × Value) := do
  let name ← componentName ref loc
  match defs.get? name with
  | some target => return (name, target)
  | none => throw ⟨.unknownReference ref.text, loc⟩

/-- The schema that the value of `$ref` stands for. -/
def resolve (defs : Members) (ref : Value) (loc : Location) : Except SchemaError Value :=
  Prod.snd <$> resolveNamed defs ref loc

/-- The last segment of a reference into the components, as the name of the schema that it stands
for. It reads more texts than `componentName?`, and the same name where both read one. -/
def referencedName? : Value → Option String
  | .map members =>
    match Members.get? members referenceKeyword with
    | some (.str ref) =>
      if componentPrefix.toList.isPrefixOf ref.toList then
        some (String.ofList (ref.toList.reverse.takeWhile (· ≠ '/')).reverse)
      else none
    | _ => none
  | _ => none

/-- The names of the components that are being opened, the outermost first. -/
abbrev Trail := List String

/-- The component that a reference opens, unless that component is being opened already. -/
def openReference (defs : Members) (trail : Trail) (ref : Value) (loc : Location) :
    Except SchemaError (String × Value) := do
  let name ← componentName ref loc
  if name ∈ trail then throw ⟨.circular (trail ++ [name]), loc⟩
  resolveNamed defs ref loc

/-- What a walk does with the value of a `$ref` at a location. -/
abbrev Follow (m : Type → Type) (α : Type) := Value → Location → m α

/-- A walk over schemas that leaves references to its argument. -/
abbrev Walk (m : Type → Type) (α : Type) := Follow m α → Value → Location → m α

variable {m : Type → Type} {α : Type}

/-- A walk that opens references, at most `level` components inside each other. The names on the
trail are distinct and belong to `defs`, so that a level of `defs.length` is never used up. -/
def visitWithin (raise : SchemaError → m α) (walk : Walk m α) (defs : Members) :
    Nat → Trail → Value → Location → m α
  | 0, trail, node, loc =>
    walk (fun ref here => match openReference defs trail ref here with
      | .error e => raise e
      | .ok (name, _) => raise ⟨.circular (trail ++ [name]), here⟩) node loc
  | level + 1, trail, node, loc =>
    walk (fun ref here => match openReference defs trail ref here with
      | .error e => raise e
      | .ok (name, target) =>
        visitWithin raise walk defs level (trail ++ [name]) target here) node loc

/-- A walk that opens references, with no component open at its start. -/
def visit (raise : SchemaError → m α) (walk : Walk m α) (defs : Members) (node : Value)
    (loc : Location) : m α :=
  visitWithin raise walk defs defs.length [] node loc

/-- A walk over the component of a name. The name is turned into a reference first, so that a name
which no reference can hold fails like that reference. -/
def visitNamed (raise : SchemaError → m α) (walk : Walk m α) (defs : Members) (name : String) :
    m α :=
  if defs.has name then visit raise walk defs (componentReference name) .top
  else raise ⟨.unknownComponent name, .top⟩

end EndpointAtlas.Schema
