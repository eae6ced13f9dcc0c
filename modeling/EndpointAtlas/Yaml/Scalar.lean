import EndpointAtlas.Json.Reader
import EndpointAtlas.Yaml.Cursor

/-!
# Scalars of a YAML text

Plain, quoted and block scalars: each function returns the text of the scalar at a position and the
position behind it. Loops over the lines of a scalar are bounded by the length of the rest of the
text, since each round takes a character.
-/

namespace EndpointAtlas.Yaml

/-! ## Plain scalars -/

/-- The characters that end a plain scalar in a flow collection. -/
def flowMarks : List Char := [',', '?', '[', ']', '{', '}']

/-- The characters that make a colon before them a mark in a flow collection. -/
def flowColonMarks : List Char := [',', '[', ']', '{', '}']

/-- The number of characters of a plain scalar up to a blank or a mark. -/
def plainLength (inFlow : Bool) : List Char → Nat
  | [] => 0
  | c :: rest =>
    let following := rest.headD endMark
    let isMark := isBlankOrEnd c ||
      (c = ':' && (isBlankOrEnd following || (inFlow && flowColonMarks.contains following))) ||
      (inFlow && flowMarks.contains c)
    if isMark then 0 else plainLength inFlow rest + 1

/-- What lies between two parts of a scalar: the text that stands for it, the position behind it
and whether a line was ended. An empty text means that the scalar ends. -/
structure Gap where
  text : List Char
  cursor : Cursor
  newLine : Bool

/-- The further line breaks behind a first one, with the spaces between them; none if a mark between
documents follows. -/
def plainBreaks : Nat → List Char → Cursor → Option (List Char) × Cursor
  | 0, breaks, c => (some breaks, c)
  | room + 1, breaks, c =>
    if c.peek = ' ' then plainBreaks room breaks c.next
    else if isBreak c.peek then
      let (b, c) := c.lineBreak
      if c.atDocumentMark then (none, c) else plainBreaks room (breaks ++ b) c
    else (some breaks, c)

/-- The breaks of a gap in one text: a single line feed counts as a space, and of several the first
is dropped. -/
def foldBreaks (first further : List Char) : List Char :=
  if first ≠ ['\n'] then first ++ further
  else if further.isEmpty then [' '] else further

/-- The gap behind a part of a plain scalar. -/
def plainGap (c : Cursor) : Gap :=
  let (spaces, c) := c.takeWhile (· = ' ')
  if isBreak c.peek then
    let (first, c) := c.lineBreak
    if c.atDocumentMark then ⟨[], c, true⟩
    else match plainBreaks c.rest.length [] c with
      | (none, c) => ⟨[], c, true⟩
      | (some further, c) => ⟨foldBreaks first further, c, true⟩
  else ⟨spaces, c, false⟩

/-- A plain scalar behind the text that was read of it. The result says also whether the scalar was
ended by a line break. -/
def plainFrom (inFlow : Bool) (indent : Int) :
    Nat → List Char → List Char → Bool → Cursor → List Char × Bool × Cursor
  | 0, text, _, newLine, c => (text, newLine, c)
  | room + 1, text, gap, newLine, c =>
    let length := if c.peek = '#' then 0 else plainLength inFlow c.rest
    if length = 0 then (text, newLine, c)
    else
      let text := text ++ gap ++ c.rest.take length
      let g := plainGap (c.skip length)
      if g.text.isEmpty || g.cursor.peek = '#' || (!inFlow && (g.cursor.column : Int) < indent) then
        (text, g.newLine, g.cursor)
      else plainFrom inFlow indent room text g.text g.newLine g.cursor

/-- The plain scalar at a position. -/
def plainScalar (inFlow : Bool) (indent : Int) (c : Cursor) : List Char × Bool × Cursor :=
  plainFrom inFlow indent (c.rest.length + 1) [] [] false c

/-! ## Quoted scalars -/

/-- The character of an escape by letter. -/
def escapedChar? : Char → Option Char
  | '0' => some '\x00'
  | 'a' => some '\x07'
  | 'b' => some '\x08'
  | 't' => some '\t'
  | '\t' => some '\t'
  | 'n' => some '\n'
  | 'v' => some '\x0b'
  | 'f' => some '\x0c'
  | 'r' => some '\r'
  | 'e' => some '\x1b'
  | ' ' => some ' '
  | '"' => some '"'
  | '\\' => some '\\'
  | '/' => some '/'
  | 'N' => some '\x85'
  | '_' => some '\xa0'
  | 'L' => some '\u2028'
  | 'P' => some '\u2029'
  | _ => none

/-- The number of digits of an escape by number. -/
def escapeWidth? : Char → Option Nat
  | 'x' => some 2
  | 'u' => some 4
  | 'U' => some 8
  | _ => none

/-- The number that hexadecimal digits write. -/
def hexNumber? (width : Nat) (cs : List Char) : Option Nat :=
  if cs.length < width then none
  else (Json.ofDigits 16 ·) <$> (cs.take width).mapM Json.hexValue?

/-- The line breaks inside a quoted scalar, with the blanks between them. -/
def quotedBreaks : Nat → List Char → Cursor → Except Error (List Char × Cursor)
  | 0, breaks, c => .ok (breaks, c)
  | room + 1, breaks, c =>
    if c.atDocumentMark then .error .malformed
    else
      let c := c.skipWhile fun ch => ch = ' ' || ch = '\t'
      if isBreak c.peek then
        let (b, c) := c.lineBreak
        quotedBreaks room (breaks ++ b) c
      else .ok (breaks, c)

/-- The blanks inside a quoted scalar. -/
def quotedSpaces (c : Cursor) : Except Error (List Char × Cursor) :=
  let (spaces, c) := c.takeWhile fun ch => ch = ' ' || ch = '\t'
  if c.rest.isEmpty then .error .malformed
  else if isBreak c.peek then do
    let (first, c) := c.lineBreak
    let (further, c) ← quotedBreaks (c.rest.length + 1) [] c
    return (foldBreaks first further, c)
  else .ok (spaces, c)

/-- The characters that end a run inside a quoted scalar. -/
def endsRun (c : Char) : Bool := c = '\'' || c = '"' || c = '\\' || isBlankOrEnd c

/-- The greatest number that can be asked for as a code point, whether there is one or not. -/
def maxEscapeNumber : Nat := 0x7FFFFFFF

/-- The character with a code point. -/
def charOfCode (n : Nat) : Except Error Char :=
  if n ≤ 0x10FFFF then .ok (Char.ofNat n)
  else .error (.scalar (if n ≤ maxEscapeNumber then .notOfType else .tooLarge))

/-- An escape behind its backslash. -/
def escapeSequence (c : Cursor) : Except Error (List Char × Cursor) :=
  match escapedChar? c.peek, escapeWidth? c.peek with
  | some ch, _ => .ok ([ch], c.next)
  | none, some width =>
    let c := c.next
    match hexNumber? width c.rest with
    | some n => do return ([← charOfCode n], c.skip width)
    | none => .error .malformed
  | none, none =>
    if isBreak c.peek then
      let c := c.lineBreak.2
      quotedBreaks (c.rest.length + 1) [] c
    else .error .malformed

/-- The text of a quoted scalar up to a blank or the quote that ends it. -/
def quotedRun (double : Bool) :
    Nat → List Char → Cursor → Except Error (List Char × Cursor)
  | 0, text, c => .ok (text, c)
  | room + 1, text, c =>
    let (run, c) := c.takeWhile fun ch => !endsRun ch
    let text := text ++ run
    let ch := c.peek
    if !double && ch = '\'' && c.peekAt 1 = '\'' then
      quotedRun double room (text ++ ['\'']) (c.skip 2)
    else if (double && ch = '\'') || (!double && (ch = '"' || ch = '\\')) then
      quotedRun double room (text ++ [ch]) c.next
    else if double && ch = '\\' then do
      let (escaped, c) ← escapeSequence c.next
      quotedRun double room (text ++ escaped) c
    else .ok (text, c)

/-- A quoted scalar behind the text that was read of it. -/
def quotedFrom (double : Bool) :
    Nat → List Char → Cursor → Except Error (List Char × Cursor)
  | 0, _, _ => .error .malformed
  | room + 1, text, c =>
    if c.peek = (if double then '"' else '\'') then .ok (text, c.next)
    else do
      let (gap, c) ← quotedSpaces c
      let (text, c) ← quotedRun double (c.rest.length + 1) (text ++ gap) c
      quotedFrom double room text c

/-- The quoted scalar at a position. -/
def quotedScalar (double : Bool) (c : Cursor) : Except Error (List Char × Cursor) := do
  let c := c.next
  let (text, c) ← quotedRun double (c.rest.length + 1) [] c
  quotedFrom double (c.rest.length + 1) text c

/-! ## Block scalars -/

/-- What happens to the line breaks at the end of a block scalar. -/
inductive Chomping where
  | clip
  | strip
  | keep
  deriving DecidableEq

/-- The sign for the end of a block scalar. -/
def chomping? : Char → Option Chomping
  | '+' => some .keep
  | '-' => some .strip
  | _ => none

/-- The indentation that a block scalar declares. -/
def increment? (c : Char) : Option Nat := if c.isDigit then some (c.toNat - '0'.toNat) else none

/-- The header of a block scalar: its sign and its indentation, in either order. -/
def blockHeader (c : Cursor) : Except Error (Chomping × Option Nat × Cursor) :=
  let (sign, number, c) := match chomping? c.peek with
    | some s =>
      match increment? c.next.peek with
      | some n => (s, some n, c.next.next)
      | none => (s, none, c.next)
    | none =>
      match increment? c.peek with
      | some n =>
        match chomping? c.next.peek with
        | some s => (s, some n, c.next.next)
        | none => (Chomping.clip, some n, c.next)
      | none => (Chomping.clip, none, c)
  if number = some 0 then .error .malformed
  else if isSpaceOrEnd c.peek then .ok (sign, number, c) else .error .malformed

/-- The line breaks before a block scalar that declares no indentation, and the greatest column that
the spaces among them reach. -/
def blockIndentation : Nat → List Char → Nat → Cursor → List Char × Nat × Cursor
  | 0, breaks, greatest, c => (breaks, greatest, c)
  | room + 1, breaks, greatest, c =>
    if c.peek = ' ' then blockIndentation room breaks (max greatest c.next.column) c.next
    else if isBreak c.peek then
      let (b, c) := c.lineBreak
      blockIndentation room (breaks ++ b) greatest c
    else (breaks, greatest, c)

/-- The position behind spaces, up to a column. -/
def skipIndent (indent : Nat) (c : Cursor) : Cursor :=
  c.skip (min (indent - c.column) (c.rest.takeWhile (· = ' ')).length)

/-- The line breaks between the lines of a block scalar, with the indentation behind them. -/
def blockBreaks (indent : Nat) : Nat → List Char → Cursor → List Char × Cursor
  | 0, breaks, c => (breaks, c)
  | room + 1, breaks, c =>
    let c := skipIndent indent c
    if isBreak c.peek then
      let (b, c) := c.lineBreak
      blockBreaks indent room (breaks ++ b) c
    else (breaks, c)

/-- A block scalar as far as it was read: its text, the break behind its last line and the breaks
behind that one. -/
structure Block where
  text : List Char
  lastBreak : List Char
  breaks : List Char
  cursor : Cursor

/-- The lines of a block scalar behind those that were read. Between two lines of a folded scalar
that do not start with a blank a single line feed counts as a space. -/
def blockLines (folded : Bool) (indent : Nat) : Nat → Block → Block
  | 0, b => b
  | room + 1, b =>
    let c := b.cursor
    if c.column = indent ∧ c.rest ≠ [] then
      let starts (c : Cursor) : Bool := c.peek = ' ' || c.peek = '\t'
      let leading := !starts c
      let (line, c) := c.takeWhile fun ch => !isBreakOrEnd ch
      let (br, c) := c.lineBreak
      let (breaks, c) := blockBreaks indent (c.rest.length + 1) [] c
      let text := b.text ++ b.breaks ++ line
      if c.column = indent ∧ c.rest ≠ [] then
        let joint :=
          if folded && br = ['\n'] && leading && !starts c then
            (if breaks.isEmpty then [' '] else [])
          else br
        blockLines folded indent room ⟨text ++ joint, br, breaks, c⟩
      else ⟨text, br, breaks, c⟩
    else b

/-- The block scalar at a position, inside a collection of the given indentation. -/
def blockScalar (folded : Bool) (parent : Int) (c : Cursor) :
    Except Error (List Char × Cursor) := do
  let (sign, number, c) ← blockHeader c.next
  let c ← c.skipRestOfLine
  let least := (max (parent + 1) 1).toNat
  let (breaks, indent, c) := match number with
    | none =>
      let (breaks, greatest, c) := blockIndentation c.rest.length [] 0 c
      (breaks, max least greatest, c)
    | some n =>
      let indent := least + n - 1
      let (breaks, c) := blockBreaks indent (c.rest.length + 1) [] c
      (breaks, indent, c)
  let b := blockLines folded indent (c.rest.length + 1) ⟨[], [], breaks, c⟩
  let tail := match sign with
    | .strip => []
    | .clip => b.lastBreak
    | .keep => b.lastBreak ++ b.breaks
  return (b.text ++ tail, b.cursor)

end EndpointAtlas.Yaml
