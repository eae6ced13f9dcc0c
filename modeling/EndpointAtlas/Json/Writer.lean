import EndpointAtlas.Value.Literal

/-!
# Writing JSON

`Json.compact` writes a value on one line and `Json.indented` with two blanks per level. All
characters but quotes, backslashes and controls stand as they are. Dates, moments, byte strings and
sets are written as their text. A key is written as a text when it is a text, a number, a truth
value or null; a value with any other key has no JSON form, and an endless value has none.

An integer is written out whatever its number of digits. One with more digits than the reader takes
(`maxIntegerDigits`) is no value of a JSON document; that a writer may refuse it is left out.
-/

namespace EndpointAtlas.Json

/-- A character inside a JSON text. -/
def escapeChar (c : Char) : List Char :=
  match c with
  | '"' => ['\\', '"']
  | '\\' => ['\\', '\\']
  | '\n' => ['\\', 'n']
  | '\r' => ['\\', 'r']
  | '\t' => ['\\', 't']
  | '\x08' => ['\\', 'b']
  | '\x0c' => ['\\', 'f']
  | c => if c.toNat < 32 then '\\' :: 'u' :: Text.hex 4 c.toNat else [c]

/-- A text between its quotes. -/
def quoted (s : String) : String := String.ofList ('"' :: s.toList.flatMap escapeChar ++ ['"'])

/-- A number with a point or an exponent. -/
def floatText : Binary64 → String
  | .nan => "NaN"
  | .infinity negative => if negative then "-Infinity" else "Infinity"
  | x => x.text

/-- A scalar in its JSON form. -/
def scalarText : Scalar → String
  | .null => "null"
  | .bool b => if b then "true" else "false"
  | .int n => toString n
  | .float x => floatText x
  | s => quoted s.text

/-- The text of a key, for the keys that have one. -/
def keyText? : Scalar → Option String
  | .str s => some s
  | .null => some "null"
  | .bool b => some (if b then "true" else "false")
  | .int n => some (toString n)
  | .float x => some (floatText x)
  | _ => none

/-- How parts are laid out: on one line, or one a line below the given level. -/
inductive Layout where
  | line
  | lines (level : Nat)

namespace Layout

/-- The layout of the parts of a part. -/
def inner : Layout → Layout
  | .line => .line
  | .lines level => .lines (level + 1)

/-- A line break with the indentation of a level. -/
def lineBreak (level : Nat) : String := "\n" ++ String.ofList (List.replicate (2 * level) ' ')

/-- Parts between two marks. -/
def enclose (layout : Layout) (opening closing : String) (parts : List String) : String :=
  if parts.isEmpty then opening ++ closing
  else match layout with
    | .line => opening ++ ", ".intercalate parts ++ closing
    | .lines level =>
      opening ++ lineBreak (level + 1) ++ ("," ++ lineBreak (level + 1)).intercalate parts ++
        lineBreak level ++ closing

end Layout

/-- Why a value has no JSON form: one of its keys has no text, or it is endless. -/
inductive Unwritable where
  | key (k : Scalar)
  | endless
  deriving DecidableEq, Repr

/-- The text of a key. -/
def keyText (k : Scalar) : Except Unwritable String :=
  match keyText? k with
  | some s => .ok s
  | none => .error (.key k)

mutual

/-- A value in a layout. -/
def write (layout : Layout) : Value → Except Unwritable String
  | .scalar s => .ok (scalarText s)
  | .list items => do
    let parts ← writeItems layout.inner items
    return layout.enclose "[" "]" parts
  | .map members => do
    let parts ← writeMembers layout.inner members
    return layout.enclose "\x7b" "\x7d" parts
  | .set items => .ok (quoted (Value.set items).text)
  | .cut _ => .error .endless

def writeItems (layout : Layout) : List Value → Except Unwritable (List String)
  | [] => .ok []
  | v :: rest => do
    let part ← write layout v
    return part :: (← writeItems layout rest)

def writeMembers (layout : Layout) : List (Scalar × Value) → Except Unwritable (List String)
  | [] => .ok []
  | (k, v) :: rest => do
    let key ← keyText k
    let part ← write layout v
    return (quoted key ++ ": " ++ part) :: (← writeMembers layout rest)

end

/-- A value on one line. -/
def compact (v : Value) : Except Unwritable String := write .line v

/-- A value with one part a line. -/
def indented (v : Value) : Except Unwritable String := write (.lines 0) v

end EndpointAtlas.Json
