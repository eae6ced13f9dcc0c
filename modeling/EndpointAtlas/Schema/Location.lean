import EndpointAtlas.Schema.Keyword

/-!
# Locations

A location names a node by the segments that lead to it from a root. A `Step` goes from a schema to
one of its child schemas; following a reference is no step.
-/

namespace EndpointAtlas

/-- Where a node stands: a root and the segments behind it. -/
structure Location where
  root : String
  segments : List String
  deriving DecidableEq, Repr

namespace Location

/-- The root of a description. -/
def top : Location := ⟨"#", []⟩

/-- The location one segment further. -/
def child (l : Location) (segment : String) : Location := ⟨l.root, l.segments ++ [segment]⟩

instance : HDiv Location String Location := ⟨child⟩

/-- The location as it is shown: the segments behind the root, a slash before each. -/
def text (l : Location) : String := l.segments.foldl (fun s segment => s ++ "/" ++ segment) l.root

@[simp] theorem text_child (l : Location) (segment : String) :
    (l / segment).text = l.text ++ "/" ++ segment := by
  change (child l segment).text = _
  simp [text, child]

end Location

namespace Schema

/-- A step from a schema to a child schema. -/
inductive Step where
  | property (key : Scalar)
  | items
  | additionalProperties
  | branch (c : Composite) (index : Nat)
  deriving DecidableEq, Repr

/-- The location behind a step. -/
def Step.from (l : Location) : Step → Location
  | .property key => l / Slot.properties.keyword / key.text
  | .items => l / Slot.items.keyword
  | .additionalProperties => l / Slot.additionalProperties.keyword
  | .branch c index => l / c.keyword / toString index

end Schema

end EndpointAtlas
