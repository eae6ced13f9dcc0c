import EndpointAtlas.Yaml.Node.Basic
import EndpointAtlas.Yaml.Token

/-!
# Nodes from tokens

`Node.ofTokens` builds the tree of the only document of a text from its tokens. Every node gets its
type, and every alias the node that its anchor names. A collection stands under its anchor as soon
as its parts are built, so an alias among them is the collection again.

The tokens to come are the state of the builder. It looks at most one token ahead, so an error among
the tokens counts only when the builder gets there. Recursion is bounded by the number of tokens,
since each round takes one.
-/

namespace EndpointAtlas.Yaml.Node

/-- The expansions of tag handles. -/
abbrev Handles := List (List Char × List Char)

/-- The handles of tags that every document has. -/
def defaultHandles : Handles := [(['!'], ['!']), (['!', '!'], Tag.space)]

/-- What the builder goes by: the tokens to come, the error behind them if there is one, the handles
of the document and the nodes that anchors name. -/
structure Input where
  tokens : List Token
  error : Option Error
  handles : Handles
  anchors : List (List Char × Node)

/-- Building from the tokens to come. -/
abbrev Build := StateT Input (Except Error)

/-- The next token, none at the end of the text. -/
def peek : Build (Option Token) := do
  let input ← get
  match input.tokens, input.error with
  | t :: _, _ => return some t
  | [], some e => throw e
  | [], none => return none

/-- Passes over the next token. -/
def advance : Build Unit := modify fun input => { input with tokens := input.tokens.tail }

/-- The text is not YAML. -/
def malformed {α : Type} : Build α := throw .malformed

/-! ## Tags and anchors -/

/-- The tag and the anchor in front of a node. -/
structure Properties where
  tag : Option (List Char)
  anchor : Option (List Char)

/-- The tag that a handle and a suffix make. -/
def expandTag (handle : Option (List Char)) (suffix : List Char) : Build (List Char) := do
  match handle with
  | none => return suffix
  | some h =>
    match (← get).handles.lookup h with
    | some expansion => return expansion ++ suffix
    | none => malformed

/-- The anchor in front of a node. -/
def anchorProperty : Build (Option (List Char)) := do
  match ← peek with
  | some (.anchor name) =>
    advance
    return some name
  | _ => return none

/-- The handle and the suffix of the tag in front of a node. -/
def tagProperty : Build (Option (Option (List Char) × List Char)) := do
  match ← peek with
  | some (.tag handle suffix) =>
    advance
    return some (handle, suffix)
  | _ => return none

/-- The properties of a node: an anchor and a tag, in either order. -/
def properties : Build Properties := do
  let before ← anchorProperty
  let tag ← tagProperty
  let anchor ← if before.isNone && tag.isSome then anchorProperty else pure before
  match tag with
  | some (handle, suffix) => return ⟨some (← expandTag handle suffix), anchor⟩
  | none => return ⟨none, anchor⟩

/-- The tag that leaves the type of a node open. -/
def openTag : List Char := ['!']

/-- The type of a scalar. -/
def Properties.scalarTag (p : Properties) (plain : Bool) (text : List Char) : Tag :=
  match p.tag with
  | none => if plain then .ofPlain text else .str
  | some uri => if uri = openTag then .ofPlain text else .ofUri uri

/-- The type of a collection. -/
def Properties.collectionTag (p : Properties) (default : Tag) : Tag :=
  match p.tag with
  | none => default
  | some uri => if uri = openTag then default else .ofUri uri

/-- Puts a node under an anchor, which may be used only once. -/
def register (anchor : List Char) (node : Node) : Build Unit := do
  let input ← get
  if (input.anchors.lookup anchor).isSome then malformed
  else set { input with anchors := (anchor, node) :: input.anchors }

/-- Puts a finished collection under its anchor, and into all nodes inside of which it is again
itself. -/
def settle (anchor : List Char) (node : Node) : Build Unit :=
  modify fun input =>
    { input with anchors := input.anchors.map fun (name, other) =>
        (name, if name = anchor then node else other.fill anchor node) }

/-- A scalar under its anchor. -/
def finished (p : Properties) (node : Node) : Build Node := do
  if let some anchor := p.anchor then register anchor node
  return node

/-- A collection under its anchor. -/
def collection (p : Properties) (isList : Bool) (parts : Build Node) : Build Node := do
  match p.anchor with
  | none => parts
  | some anchor =>
    register anchor (.again anchor isList)
    let node := (← parts).closed anchor
    settle anchor node
    return node

/-- A node without content, which has to have a property. -/
def missing (p : Properties) : Build Node :=
  if p.tag.isNone && p.anchor.isNone then malformed
  else finished p (.scalar (p.scalarTag true []) [])

/-! ## Nodes -/

/-- Which collections may start at a place. -/
inductive Place where
  | flow
  | block
  | blockOrDashes
  deriving DecidableEq

mutual

/-- The node at a place. -/
def build : Nat → Place → Build Node
  | 0, _ => malformed
  | room + 1, place => do
    match ← peek with
    | some (.aliasOf name) =>
      advance
      match (← get).anchors.lookup name with
      | some node => return node
      | none => malformed
    | _ =>
      let p ← properties
      match ← peek with
      | some .blockEntry =>
        if place = .blockOrDashes then
          collection p true do
            return .sequence (p.collectionTag .seq) (← dashes room)
        else missing p
      | some (.scalar plain text) =>
        advance
        finished p (.scalar (p.scalarTag plain text) text)
      | some .sequenceStart =>
        collection p true do
          advance
          return .sequence (p.collectionTag .seq) (← flowItems room true)
      | some .mappingStart =>
        collection p false do
          advance
          return .mapping (p.collectionTag .map) (← flowPairs room true)
      | some .blockSequenceStart =>
        if place = .flow then missing p
        else
          collection p true do
            advance
            return .sequence (p.collectionTag .seq) (← blockItems room)
      | some .blockMappingStart =>
        if place = .flow then missing p
        else
          collection p false do
            advance
            return .mapping (p.collectionTag .map) (← blockPairs room)
      | _ => missing p

/-- The items of a block sequence. -/
def blockItems : Nat → Build (List Node)
  | 0 => malformed
  | room + 1 => do
    match ← peek with
    | some .blockEnd =>
      advance
      return []
    | some .blockEntry =>
      advance
      let item ← match ← peek with
        | some .blockEntry => pure empty
        | some .blockEnd => pure empty
        | _ => build room .block
      return item :: (← blockItems room)
    | _ => malformed

/-- The items of a sequence that stands at the indentation of its parent. -/
def dashes : Nat → Build (List Node)
  | 0 => malformed
  | room + 1 => do
    match ← peek with
    | some .blockEntry =>
      advance
      let item ← match ← peek with
        | some .blockEntry => pure empty
        | some .key => pure empty
        | some .value => pure empty
        | some .blockEnd => pure empty
        | _ => build room .block
      return item :: (← dashes room)
    | _ => return []

/-- The key or the value behind a mark of a block mapping, empty if another mark follows. -/
def blockPart : Nat → Build Node
  | 0 => malformed
  | room + 1 => do
    match ← peek with
    | some .key => return empty
    | some .value => return empty
    | some .blockEnd => return empty
    | _ => build room .blockOrDashes

/-- The pairs of a block mapping. -/
def blockPairs : Nat → Build (List (Node × Node))
  | 0 => malformed
  | room + 1 => do
    match ← peek with
    | some .blockEnd =>
      advance
      return []
    | some .key =>
      advance
      let key ← blockPart room
      let value ← match ← peek with
        | some .value => do
          advance
          blockPart room
        | _ => pure empty
      return (key, value) :: (← blockPairs room)
    | _ => malformed

/-- The key behind its mark in a flow collection, empty if another mark follows. -/
def flowKey : Nat → Token → Build Node
  | 0, _ => malformed
  | room + 1, last => do
    let next ← peek
    if next = some .value ∨ next = some .flowEntry ∨ next = some last then return empty
    else build room .flow

/-- The value behind a key in a flow collection, empty if there is none. -/
def flowValue : Nat → Token → Build Node
  | 0, _ => malformed
  | room + 1, last => do
    match ← peek with
    | some .value =>
      advance
      let next ← peek
      if next = some .flowEntry ∨ next = some last then return empty else build room .flow
    | _ => return empty

/-- The items of a flow sequence. A pair among them is a mapping of its own. -/
def flowItems : Nat → Bool → Build (List Node)
  | 0, _ => malformed
  | room + 1, first => do
    if (← peek) = some .sequenceEnd then
      advance
      return []
    else
      if !first then
        if (← peek) = some .flowEntry then advance else malformed
      match ← peek with
      | some .sequenceEnd =>
        advance
        return []
      | some .key =>
        advance
        let key ← flowKey room .sequenceEnd
        let value ← flowValue room .sequenceEnd
        return .mapping .map [(key, value)] :: (← flowItems room false)
      | _ =>
        let item ← build room .flow
        return item :: (← flowItems room false)

/-- The pairs of a flow mapping. A node without the mark of a key is a key with an empty value. -/
def flowPairs : Nat → Bool → Build (List (Node × Node))
  | 0, _ => malformed
  | room + 1, first => do
    if (← peek) = some .mappingEnd then
      advance
      return []
    else
      if !first then
        if (← peek) = some .flowEntry then advance else malformed
      match ← peek with
      | some .mappingEnd =>
        advance
        return []
      | some .key =>
        advance
        let key ← flowKey room .mappingEnd
        let value ← flowValue room .mappingEnd
        return (key, value) :: (← flowPairs room false)
      | _ =>
        let key ← build room .flow
        return (key, empty) :: (← flowPairs room false)

end

/-! ## Documents -/

/-- The handles that the directives in front of a document give, behind those that were given
before. A version may be given once, and each handle once. -/
def directives : Nat → Bool → Handles → Build Handles
  | 0, _, _ => malformed
  | room + 1, versioned, handles => do
    match ← peek with
    | some (.version major) =>
      advance
      if versioned ∨ major ≠ 1 then malformed else directives room true handles
    | some (.tagHandle h expansion) =>
      advance
      if (handles.lookup h).isSome then malformed
      else directives room versioned ((h, expansion) :: handles)
    | some .otherDirective =>
      advance
      directives room versioned handles
    | _ => return handles

/-- Whether a token stands between documents. -/
def isBetweenDocuments : Token → Bool
  | .version _ => true
  | .tagHandle _ _ => true
  | .otherDirective => true
  | .documentStart => true
  | .documentEnd => true
  | _ => false

/-- Passes over marks for the end of a document. -/
def skipEnds : Nat → Build Unit
  | 0 => malformed
  | room + 1 => do
    if (← peek) = some .documentEnd then
      advance
      skipEnds room

/-- The end of the text behind its only document. -/
def finish (room : Nat) : Build Unit := do
  skipEnds room
  if (← peek).isSome then
    let _ ← directives room false []
    malformed

/-- The content of a document behind the mark at its start. -/
def markedContent (room : Nat) : Build Node := do
  match ← peek with
  | none => return empty
  | some t => if isBetweenDocuments t then return empty else build room .block

/-- The only document of a text, if it has one. It starts with its content, or with directives and a
mark. -/
def document (room : Nat) : Build (Option Node) := do
  match ← peek with
  | none => return none
  | some t =>
    let node ←
      if isBetweenDocuments t && t ≠ .documentEnd then do
        let handles ← directives room false []
        if (← peek) = some .documentStart then
          advance
          modify fun input => { input with handles := handles ++ defaultHandles }
          markedContent room
        else malformed
      else build room .block
    finish room
    return some node

/-- The only document of a text, if it has one. -/
def ofTokens (tokens : Tokens) : Except Error (Option Node) :=
  (document (4 * tokens.settled.length + 4)).run'
    ⟨tokens.settled, tokens.error, defaultHandles, []⟩

end EndpointAtlas.Yaml.Node
