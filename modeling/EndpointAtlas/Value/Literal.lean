import EndpointAtlas.Numeric.Shortest
import EndpointAtlas.Text.Quoted
import EndpointAtlas.Value.Endless

/-!
# Values inside messages

A message shows a value by its literal: texts are quoted, the constants are `None`, `True` and
`False`, lists stand in brackets and mappings in braces. Three points stand in the place of a
collection that is met once more inside itself. `Value.text` is the literal, except that texts,
dates and moments stand there as they are. An integer is written out whatever its number of digits;
that one with more than 4300, which no JSON document has, may have no literal is left out.
-/

namespace EndpointAtlas

namespace Scalar

/-- The literal of a scalar. -/
def literal : Scalar → String
  | .null => "None"
  | .bool b => if b then "True" else "False"
  | .int n => toString n
  | .float x => x.text
  | .str s => Text.quoted s
  | .date d => d.literal
  | .moment m => m.literal
  | .bytes bs => Text.quotedBytes bs

/-- The text of a scalar. -/
def text : Scalar → String
  | .str s => s
  | .date d => d.text
  | .moment m => m.text
  | s => s.literal

end Scalar

namespace Value

/-- Texts in a row with commas, between two marks. -/
def enclosed (opening closing : String) (parts : List String) : String :=
  opening ++ ", ".intercalate parts ++ closing

mutual

/-- The literal of a value that is cut off behind its first round. -/
def written : Value → String
  | .scalar s => s.literal
  | .list items => enclosed "[" "]" (writtenItems items)
  | .map members => enclosed "\x7b" "\x7d" (writtenMembers members)
  | .set [] => "set()"
  | .set items => enclosed "\x7b" "\x7d" (items.map Scalar.literal)
  | .cut isList => if isList then "[...]" else "\x7b...\x7d"

/-- The literals of a list of values. -/
def writtenItems : List Value → List String
  | [] => []
  | v :: rest => v.written :: writtenItems rest

/-- The literals of members, with a colon behind the key. -/
def writtenMembers : List (Scalar × Value) → List String
  | [] => []
  | (k, v) :: rest => (k.literal ++ ": " ++ v.written) :: writtenMembers rest

end

/-- The literal of a value. -/
def literal (v : Value) : String := v.folded.written

@[simp] theorem literal_scalar (s : Scalar) : literal (.scalar s) = s.literal := rfl

/-- The text of a value. -/
def text : Value → String
  | .scalar s => s.text
  | v => v.literal

end Value

end EndpointAtlas
