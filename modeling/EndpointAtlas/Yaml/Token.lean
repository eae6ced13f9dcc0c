import EndpointAtlas.Text.Bytes
import EndpointAtlas.Yaml.Scalar

/-!
# Tokens of a YAML text

`Tokens.ofText` splits a text into tokens. Indentation becomes tokens of its own: a block collection
starts with one and ends with one. Whether a scalar is a key shows only at the colon behind it, so
the place before each token that could start a key is remembered, and the mark of a key is put there
once the colon is met.

Where the text has an error, the tokens end. Those before it that are settled are kept, because what
they say may be an error that comes first.
-/

namespace EndpointAtlas.Yaml

/-- A token. -/
inductive Token where
  | version (major : Nat)
  | tagHandle (handle : List Char) (expansion : List Char)
  | otherDirective
  | documentStart
  | documentEnd
  | blockSequenceStart
  | blockMappingStart
  | blockEnd
  | sequenceStart
  | sequenceEnd
  | mappingStart
  | mappingEnd
  | blockEntry
  | flowEntry
  | key
  | value
  | aliasOf (name : List Char)
  | anchor (name : List Char)
  | tag (handle : Option (List Char)) (suffix : List Char)
  | scalar (plain : Bool) (text : List Char)
  deriving DecidableEq, Repr

/-- The tokens of a text, and why they end before the text does, if they do. -/
structure Tokens where
  settled : List Token
  error : Option Error
  deriving DecidableEq, Repr

/-! ## Names, tags, quotes and directives -/

/-- The characters that may stand behind a name. -/
def endsName (c : Char) : Bool :=
  isBlankOrEnd c || ['?', ':', ',', ']', '}', '%', '@', '`'].contains c

/-- The name of an anchor or an alias behind its mark. -/
def anchorName (c : Cursor) : Except Error (List Char × Cursor) :=
  let (name, c) := c.next.takeWhile isNameChar
  if name.isEmpty || !endsName c.peek then .error .malformed else .ok (name, c)

/-- The characters of a tag besides escapes. -/
def isTagChar (c : Char) : Bool :=
  c.isAlphanum || "-;/?:@&=+$,_.!~*'()[]".toList.contains c

/-- Bytes written as a percent sign and two digits each. -/
def percentBytes : Nat → Cursor → Except Error (List UInt8 × Cursor)
  | 0, c => .ok ([], c)
  | room + 1, c =>
    if c.peek = '%' then
      match hexNumber? 2 c.next.rest with
      | some n => do
        let (bytes, c) ← percentBytes room (c.skip 3)
        return (UInt8.ofNat n :: bytes, c)
      | none => .error .malformed
    else .ok ([], c)

/-- The text of a tag: characters, and escapes that are UTF-8 together. -/
def tagText : Nat → Cursor → Except Error (List Char × Cursor)
  | 0, c => .ok ([], c)
  | room + 1, c =>
    let (run, c) := c.takeWhile isTagChar
    if c.peek = '%' then do
      let (bytes, c) ← percentBytes c.rest.length c
      match Text.decode bytes with
      | some cs =>
        let (rest, c) ← tagText room c
        return (run ++ cs ++ rest, c)
      | none => .error .malformed
    else .ok (run, c)

/-- A text of a tag, which has to have a character. -/
def tagUri (c : Cursor) : Except Error (List Char × Cursor) := do
  let (text, after) ← tagText (c.rest.length + 1) c
  if after.index = c.index then .error .malformed else return (text, after)

/-- A handle of tags: a single mark, or a name between two marks. -/
def tagHandle (c : Cursor) : Except Error (List Char × Cursor) :=
  if c.peek ≠ '!' then .error .malformed
  else if c.peekAt 1 = ' ' then .ok (['!'], c.next)
  else
    let (name, c) := c.next.takeWhile isNameChar
    if c.peek = '!' then .ok ('!' :: name ++ ['!'], c.next) else .error .malformed

/-- A tag: verbatim between angle brackets, a single mark, or a handle with a suffix. -/
def tagToken (c : Cursor) : Except Error (Token × Cursor) := do
  let (token, c) ←
    if c.peekAt 1 = '<' then do
      let (suffix, c) ← tagUri (c.skip 2)
      if c.peek = '>' then pure (Token.tag none suffix, c.next) else .error .malformed
    else if isBlankOrEnd (c.peekAt 1) then pure (Token.tag none ['!'], c.next)
    else
      let word := c.next.rest.takeWhile fun ch => !isSpaceOrEnd ch
      if word.contains '!' then do
        let (handle, c) ← tagHandle c
        let (suffix, c) ← tagUri c
        pure (Token.tag (some handle) suffix, c)
      else do
        let (suffix, c) ← tagUri c.next
        pure (Token.tag (some ['!']) suffix, c)
  if isSpaceOrEnd c.peek then return (token, c) else .error .malformed

/-- The decimal number at a position. -/
def directiveNumber (c : Cursor) : Except Error (Nat × Cursor) :=
  let (digits, c) := c.takeWhile Char.isDigit
  if digits.isEmpty then .error .malformed else .ok (Json.decimalValue digits, c)

/-- A directive. Those that are neither for a version nor for a tag handle are passed over. -/
def directiveToken (c : Cursor) : Except Error (Token × Cursor) := do
  let (name, c) := c.next.takeWhile isNameChar
  if name.isEmpty || !isSpaceOrEnd c.peek then .error .malformed
  else
    let (token, c) ←
      if name = "YAML".toList then do
        let (major, c) ← directiveNumber c.skipSpaces
        if c.peek ≠ '.' then .error .malformed
        else
          let (_, c) ← directiveNumber c.next
          if isSpaceOrEnd c.peek then pure (Token.version major, c) else .error .malformed
      else if name = "TAG".toList then do
        let (handle, c) ← tagHandle c.skipSpaces
        if c.peek ≠ ' ' then .error .malformed
        else
          let (expansion, c) ← tagUri c.skipSpaces
          if isSpaceOrEnd c.peek then pure (Token.tagHandle handle expansion, c)
          else .error .malformed
      else pure (Token.otherDirective, c.skipWhile fun ch => !isBreakOrEnd ch)
    return (token, ← c.skipRestOfLine)

/-- A quoted scalar. -/
def quotedToken (double : Bool) (c : Cursor) : Except Error (Token × Cursor) := do
  let (text, c) ← quotedScalar double c
  return (.scalar false text, c)

/-! ## The state between tokens -/

/-- The place of a token that could start a key: how many tokens stand before it, whether only a key
can stand there, and the position. -/
structure PossibleKey where
  number : Nat
  required : Bool
  index : Nat
  line : Nat
  column : Nat

/-- The state between two tokens: the position, the nesting of flow collections with a possible key
on each level, the indentations of the open block collections, whether a key may start here, and the
tokens so far, the last one first. -/
structure Scan where
  cursor : Cursor
  keys : List (Option PossibleKey)
  indent : Int
  indents : List Int
  keyAllowed : Bool
  tokens : List Token

namespace Scan

/-- The state before a text. -/
def start (text : List Char) : Scan := ⟨.start text, [none], -1, [], true, []⟩

/-- Whether the position is inside a flow collection. -/
def inFlow (s : Scan) : Bool := 1 < s.keys.length

/-- The state with a token more. -/
def emit (s : Scan) (t : Token) : Scan := { s with tokens := t :: s.tokens }

/-- The state with a token more and the position behind it. -/
def emitAt (s : Scan) (t : Token) (c : Cursor) : Scan :=
  { s with tokens := t :: s.tokens, cursor := c }

/-- The state with a token put where a number of tokens stand before it. -/
def insertAt (s : Scan) (number : Nat) (t : Token) : Scan :=
  let behind := s.tokens.length - number
  { s with tokens := s.tokens.take behind ++ t :: s.tokens.drop behind }

/-- The longest distance in characters from the start of a key to its colon. -/
def keyLimit : Nat := 1024

/-- Whether a possible key can still be one at a position. -/
def isLive (c : Cursor) (key : PossibleKey) : Bool :=
  key.line = c.line && c.index - key.index ≤ keyLimit

/-- A possible key, unless it is too far away. One that had to be a key is an error. -/
def keepLive (c : Cursor) : Option PossibleKey → Except Error (Option PossibleKey)
  | some key =>
    if isLive c key then .ok (some key)
    else if key.required then .error .malformed
    else .ok none
  | none => .ok none

/-- The state without the possible keys that are too far away. -/
def dropStaleKeys (s : Scan) : Except Error Scan := do
  let keys ← s.keys.mapM (keepLive s.cursor)
  return { s with keys }

/-- The state without a possible key on the present level. One that had to be a key is an error. -/
def dropKey (s : Scan) : Except Error Scan :=
  match s.keys with
  | some key :: outer =>
    if key.required then .error .malformed else .ok { s with keys := none :: outer }
  | _ => .ok s

/-- The state with a possible key at the position, where one is allowed. -/
def saveKey (s : Scan) : Except Error Scan :=
  if s.keyAllowed then do
    let required := !s.inFlow && s.indent = s.cursor.column
    let s ← s.dropKey
    let key : PossibleKey :=
      ⟨s.tokens.length, required, s.cursor.index, s.cursor.line, s.cursor.column⟩
    return { s with keys := some key :: s.keys.tail }
  else .ok s

/-- The block collections that are deeper than a column, ended. -/
def closeDeeper (column : Int) : List Int → Int → List Token → List Int × Int × List Token
  | [], indent, tokens => ([], indent, tokens)
  | outer :: indents, indent, tokens =>
    if column < indent then closeDeeper column indents outer (.blockEnd :: tokens)
    else (outer :: indents, indent, tokens)

/-- The state with the block collections ended that are deeper than a column. -/
def unwind (s : Scan) (column : Int) : Scan :=
  if s.inFlow then s
  else
    let (indents, indent, tokens) := closeDeeper column s.indents s.indent s.tokens
    { s with indents, indent, tokens }

/-- The state with a deeper indentation, if the column is deeper, and whether it is. -/
def deepen (s : Scan) (column : Nat) : Scan × Bool :=
  if s.indent < column then ({ s with indents := s.indent :: s.indents, indent := column }, true)
  else (s, false)

/-- The state at the next token: blanks, line breaks and comments are passed over. Behind a line
break in a block collection a key may start. -/
def skipToToken : Nat → Scan → Scan
  | 0, s => s
  | room + 1, s =>
    let c := s.cursor.skipSpaces.skipComment
    if isBreak c.peek then
      skipToToken room
        { s with cursor := c.lineBreak.2, keyAllowed := s.keyAllowed || !s.inFlow }
    else { s with cursor := c }

/-! ## One token -/

/-- A mark at the end of whose block collections a document starts or ends. -/
def documentMark (s : Scan) (t : Token) : Except Error Scan := do
  let s ← (s.unwind (-1)).dropKey
  return { s.emitAt t (s.cursor.skip 3) with keyAllowed := false }

/-- A directive. -/
def directive (s : Scan) : Except Error Scan := do
  let s ← (s.unwind (-1)).dropKey
  let (t, c) ← directiveToken s.cursor
  return { s.emitAt t c with keyAllowed := false }

/-- The start of a flow collection. -/
def openFlow (s : Scan) (t : Token) : Except Error Scan := do
  let s ← s.saveKey
  return { s.emitAt t s.cursor.next with keys := none :: s.keys, keyAllowed := true }

/-- The end of a flow collection. -/
def closeFlow (s : Scan) (t : Token) : Except Error Scan :=
  if s.inFlow then do
    let s ← s.dropKey
    return { s.emitAt t s.cursor.next with keys := s.keys.tail, keyAllowed := false }
  else .error .malformed

/-- A comma in a flow collection. -/
def flowEntry (s : Scan) : Except Error Scan := do
  let s ← s.dropKey
  return { s.emitAt .flowEntry s.cursor.next with keyAllowed := true }

/-- The state with a block collection started at the position, if it is deeper. Outside of flow
collections that needs a place where a key may start. -/
def openBlock (s : Scan) (t : Token) : Except Error Scan :=
  if s.inFlow then .ok s
  else if !s.keyAllowed then .error .malformed
  else
    let (s, deeper) := s.deepen s.cursor.column
    .ok (if deeper then s.emit t else s)

/-- A dash. -/
def blockEntry (s : Scan) : Except Error Scan := do
  let s ← s.openBlock .blockSequenceStart
  let s ← s.dropKey
  return { s.emitAt .blockEntry s.cursor.next with keyAllowed := true }

/-- A question mark. -/
def explicitKey (s : Scan) : Except Error Scan := do
  let s ← s.openBlock .blockMappingStart
  let s ← s.dropKey
  return { s.emitAt .key s.cursor.next with keyAllowed := !s.inFlow }

/-- A colon. If a possible key stands before it, that is a key, which may start a block mapping. -/
def value (s : Scan) : Except Error Scan :=
  match s.keys with
  | some key :: outer =>
    let s := { s with keys := none :: outer }.insertAt key.number .key
    let s := if s.inFlow then s
      else
        let (s, deeper) := s.deepen key.column
        if deeper then s.insertAt key.number .blockMappingStart else s
    .ok { s.emitAt .value s.cursor.next with keyAllowed := false }
  | _ => do
    let s ← s.openBlock .blockMappingStart
    let s ← s.dropKey
    return { s.emitAt .value s.cursor.next with keyAllowed := !s.inFlow }

/-- A token that may start a key and behind which none may start. -/
def keyStart (s : Scan) (read : Cursor → Except Error (Token × Cursor)) : Except Error Scan := do
  let s ← s.saveKey
  let (t, c) ← read s.cursor
  return { s.emitAt t c with keyAllowed := false }

/-- A block scalar. -/
def blockScalarToken (s : Scan) (folded : Bool) : Except Error Scan := do
  let s ← s.dropKey
  let (text, c) ← blockScalar folded s.indent s.cursor
  return { s.emitAt (.scalar false text) c with keyAllowed := true }

/-- A plain scalar. A key may start behind it if a line break ended it. -/
def plain (s : Scan) : Except Error Scan := do
  let s ← s.saveKey
  let (text, newLine, c) := plainScalar s.inFlow (s.indent + 1) s.cursor
  return { s.emitAt (.scalar true text) c with keyAllowed := newLine }

/-- Whether the mark at the position is one: in a block collection a blank has to follow. -/
def isMark (s : Scan) : Bool := s.inFlow || isBlankOrEnd (s.cursor.peekAt 1)

/-- The characters that start no plain scalar. -/
def indicators : List Char := "-?:,[]\x7b\x7d#&*!|>'\"%@`".toList

/-- Whether a plain scalar starts at the position. -/
def startsPlain (s : Scan) : Bool :=
  let ch := s.cursor.peek
  !(isBlankOrEnd ch || indicators.contains ch) ||
    (!isBlankOrEnd (s.cursor.peekAt 1) && (ch = '-' || (!s.inFlow && (ch = '?' || ch = ':'))))

/-- The state behind the token at the position. -/
def token (s : Scan) : Except Error Scan :=
  match s.cursor.peek with
  | '[' => s.openFlow .sequenceStart
  | '{' => s.openFlow .mappingStart
  | ']' => s.closeFlow .sequenceEnd
  | '}' => s.closeFlow .mappingEnd
  | ',' => s.flowEntry
  | '*' => s.keyStart fun c => do
      let (name, c) ← anchorName c
      return (.aliasOf name, c)
  | '&' => s.keyStart fun c => do
      let (name, c) ← anchorName c
      return (.anchor name, c)
  | '!' => s.keyStart tagToken
  | '\'' => s.keyStart (quotedToken false)
  | '"' => s.keyStart (quotedToken true)
  | ch =>
    if ch = '-' ∧ isBlankOrEnd (s.cursor.peekAt 1) then s.blockEntry
    else if ch = '?' ∧ s.isMark then s.explicitKey
    else if ch = ':' ∧ s.isMark then s.value
    else if ch = '|' ∧ !s.inFlow then s.blockScalarToken false
    else if ch = '>' ∧ !s.inFlow then s.blockScalarToken true
    else if s.startsPlain then s.plain
    else .error .malformed

/-- The state behind the token at the position. At the start of a line a directive or a mark between
documents may stand. -/
def lineToken (s : Scan) : Except Error Scan :=
  let c := s.cursor
  if c.peek = '%' ∧ c.column = 0 then s.directive
  else if c.column = 0 ∧ c.atMarks '-' then s.documentMark .documentStart
  else if c.column = 0 ∧ c.atMarks '.' then s.documentMark .documentEnd
  else s.token

/-- The state in front of the next token, with the block collections ended that are deeper. -/
def approach (s : Scan) : Except Error Scan := do
  let s ← (skipToToken (s.cursor.rest.length + 1) s).dropStaleKeys
  return s.unwind s.cursor.column

/-- The state behind the next token, none at the end of the text. -/
def step (s : Scan) : Except Error (Option Scan) := do
  let s ← s.approach
  if s.cursor.rest.isEmpty then return none else some <$> s.lineToken

/-- The state at the end of the text, with all block collections ended. -/
def finish (s : Scan) : Except Error Scan := (s.unwind (-1)).dropKey

/-- The tokens that stay where they are whatever follows: those before the first possible key. -/
def settled (s : Scan) : List Token :=
  let pending := (s.keys.filterMap id).filter (isLive s.cursor)
  s.tokens.reverse.take ((pending.map PossibleKey.number).foldl min s.tokens.length)

/-- The tokens at the end of the text. -/
def ended (s : Scan) : Tokens :=
  match (skipToToken (s.cursor.rest.length + 1) s).dropStaleKeys >>= finish with
  | .ok done => ⟨done.tokens.reverse, none⟩
  | .error e => ⟨s.settled, some e⟩

/-- The tokens of a text, if those from the next state on are known. -/
def resume (s : Scan) (further : Scan → Tokens) : Tokens :=
  match s.step with
  | .ok (some next) => further next
  | .ok none => s.ended
  | .error e => ⟨s.settled, some e⟩

/-- The tokens from a state on. -/
def run : Nat → Scan → Tokens
  | 0, s => ⟨s.settled, some .malformed⟩
  | room + 1, s => s.resume (run room)

end Scan

/-- The tokens of a text. A byte order mark at its start is passed over. -/
def Tokens.ofText (text : List Char) : Tokens :=
  if text.all isAllowed then
    let text := if text.head? = some byteOrderMark then text.tail else text
    (Scan.start text).run (text.length + 1)
  else ⟨[], some .malformed⟩

end EndpointAtlas.Yaml
