import EndpointAtlas.Yaml.Tag

/-!
# Nodes of a YAML document

A node has a tag that names its type. An alias stands for a copy of the node that its anchor names.
Inside of that node itself it cannot be one: there it is `again`, and `Node.closed` puts further
rounds of the whole in its place.

A merge key takes the members of another mapping. Where that is the mapping itself, or one that it is
merged into, its own members are all there is to take.
-/

namespace EndpointAtlas.Yaml

/-- A node of a document. -/
inductive Node where
  | scalar (tag : Tag) (text : List Char)
  | sequence (tag : Tag) (items : List Node)
  | mapping (tag : Tag) (pairs : List (Node × Node))
  /-- The sequence or mapping with an anchor, inside of itself. -/
  | again (anchor : List Char) (isList : Bool)
  deriving Repr

namespace Node

/-- An empty node. -/
def empty : Node := .scalar .null []

/-- Whether a node is the key under which a mapping takes members from others. -/
def isMergeKey : Node → Bool
  | .scalar .merge _ => true
  | _ => false

/-! ## Nodes inside of themselves -/

mutual

/-- A node with the whole in the place of what is again the whole. -/
def fill (anchor : List Char) (whole : Node) : Node → Node
  | .scalar tag text => .scalar tag text
  | .sequence tag items => .sequence tag (fillItems anchor whole items)
  | .mapping tag pairs => .mapping tag (fillPairs anchor whole pairs)
  | .again name isList => if name = anchor then whole else .again name isList

def fillItems (anchor : List Char) (whole : Node) : List Node → List Node
  | [] => []
  | n :: rest => fill anchor whole n :: fillItems anchor whole rest

def fillPairs (anchor : List Char) (whole : Node) : List (Node × Node) → List (Node × Node)
  | [] => []
  | (k, v) :: rest => (fill anchor whole k, fill anchor whole v) :: fillPairs anchor whole rest

end

mutual

/-- The value of a merge key with a mapping in the place of what is merged into itself. -/
def fillMerge (anchor : List Char) (own : Node) : Node → Node
  | .scalar tag text => .scalar tag text
  | .sequence tag items => .sequence tag (fillMergeItems anchor own items)
  | .mapping tag pairs => .mapping tag (fillMergePairs anchor own pairs)
  | .again name isList => if name = anchor then own else .again name isList

def fillMergeItems (anchor : List Char) (own : Node) : List Node → List Node
  | [] => []
  | n :: rest => fillMerge anchor own n :: fillMergeItems anchor own rest

/-- Pairs with a mapping in the place of what is merged into itself. -/
def fillMergePairs (anchor : List Char) (own : Node) : List (Node × Node) → List (Node × Node)
  | [] => []
  | (k, v) :: rest =>
    (k, if isMergeKey k then fillMerge anchor own v else v) :: fillMergePairs anchor own rest

end

/-- A node with what is merged into itself filled in. -/
def selfMerged (anchor : List Char) : Node → Node
  | .mapping tag pairs =>
    let own := Node.mapping .map (pairs.filter fun (k, _) => !isMergeKey k)
    .mapping tag (fillMergePairs anchor own pairs)
  | n => n

/-- How many further rounds a node holds that is again itself. -/
def furtherRounds : Nat := 2

/-- A node with further rounds of itself wherever it is again itself. -/
def rounds (anchor : List Char) (n : Node) : Nat → Node
  | 0 => n
  | count + 1 => n.fill anchor (rounds anchor n count)

/-- The node with an anchor, with further rounds of itself wherever it is again itself. -/
def closed (anchor : List Char) (n : Node) : Node :=
  (n.selfMerged anchor).rounds anchor furtherRounds

end Node

end EndpointAtlas.Yaml
