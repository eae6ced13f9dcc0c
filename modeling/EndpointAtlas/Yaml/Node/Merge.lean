import EndpointAtlas.Yaml.Node.Basic

/-!
# Merging

`Node.merged` puts the members that a mapping takes from others in front of its own. A mapping that
takes members from one that it stands inside of is endless, so it is cut off where that one is again
itself.
-/

namespace EndpointAtlas.Yaml.Node

/-- The key that stands for itself: an equals sign. -/
def asKey : Node → Node
  | .scalar .value text => .scalar .str text
  | .sequence .value items => .sequence .str items
  | .mapping .value pairs => .mapping .str pairs
  | n => n

/-- The pairs of the mappings in a list, the last mapping first; none if another node is there. -/
def pairsOfAll? : List Node → Option (List (Node × Node))
  | [] => some []
  | .mapping _ pairs :: rest => (· ++ pairs) <$> pairsOfAll? rest
  | .again _ false :: rest => pairsOfAll? rest
  | _ => none

/-- The pairs that a mapping takes from the value of a merge key. -/
def mergedPairs? : Node → Option (List (Node × Node))
  | .mapping _ pairs => some pairs
  | .sequence _ items => pairsOfAll? items
  | .again _ false => some []
  | _ => none

/-- Pairs with those taken from others in front; none if a merge key has a value without pairs. -/
def mergePairs? (pairs : List (Node × Node)) : Option (List (Node × Node)) := do
  let (merges, own) := pairs.partition fun p => isMergeKey p.1
  let taken ← merges.mapM fun p => mergedPairs? p.2
  return taken.flatten ++ own.map fun p => (asKey p.1, p.2)

/-- Whether a node is again a mapping that it stands inside of. -/
def isAgainMapping : Node → Bool
  | .again _ isList => !isList
  | _ => false

/-- The mapping around some pairs that they take members from, if there is one. -/
def mergedAgain? : List (Node × Node) → Option Node
  | [] => none
  | (k, v) :: rest =>
    let values := match v with
      | .sequence _ items => items
      | n => [n]
    match if isMergeKey k then values.find? isAgainMapping else none with
    | some n => some n
    | none => mergedAgain? rest

/-- Whether the value of a mapping of a type has members. -/
def hasMembers (tag : Tag) : Bool := tag = .map || tag = .set

/-- What is left of a mapping that cannot be merged: a pair that has no value. -/
def unmergeable : List (Node × Node) := [(.scalar .merge [], empty)]

/-- A mapping with the members that it takes from others, which are merged themselves. -/
def mergedMapping (tag : Tag) (pairs : List (Node × Node)) : Node :=
  match mergePairs? pairs, mergedAgain? pairs with
  | none, _ => .mapping tag unmergeable
  | some _, some n => n
  | some all, none => .mapping tag all

mutual

/-- A node in which all mappings and sets hold the members that they take from others. -/
def merged : Node → Node
  | .scalar tag text => .scalar tag text
  | .sequence .entries items => .sequence .entries (mergedEntries items)
  | .sequence tag items => .sequence tag (mergedItems items)
  | .mapping tag pairs =>
    let pairs := mergedMembers pairs
    if hasMembers tag then mergedMapping tag pairs else .mapping tag pairs
  | .again anchor isList => .again anchor isList

def mergedItems : List Node → List Node
  | [] => []
  | n :: rest => merged n :: mergedItems rest

/-- Entries take no members from others, only what is inside of them does. -/
def mergedEntries : List Node → List Node
  | [] => []
  | .mapping tag pairs :: rest => .mapping tag (mergedMembers pairs) :: mergedEntries rest
  | n :: rest => merged n :: mergedEntries rest

def mergedMembers : List (Node × Node) → List (Node × Node)
  | [] => []
  | (k, v) :: rest => (merged k, merged v) :: mergedMembers rest

end

end EndpointAtlas.Yaml.Node
