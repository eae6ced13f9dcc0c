/-!
# Path patterns

In a pattern a star stands for any characters, a question mark for one, and brackets for one of the
characters and ranges inside them, or for one that is not among them if they start with an
exclamation mark. `Glob.accepts` looks at the ends of a text only once each, so that its work grows
with the length of the text and of the pattern.
-/

namespace EndpointAtlas

namespace Glob

/-- A piece of a pattern: any characters, or one character of a kind. The kind of a bracket is given
by its ranges. -/
inductive Piece where
  | star
  | any
  | char (c : Char)
  | oneOf (negated : Bool) (ranges : List (Char × Char))
  deriving DecidableEq, Repr

/-- Whether a piece for one character accepts it. -/
def Piece.accepts : Piece → Char → Bool
  | .star, _ => false
  | .any, _ => true
  | .char d, c => c = d
  | .oneOf negated ranges, c =>
    ranges.any (fun (low, high) => low ≤ c && c ≤ high) != negated

/-! ## Brackets -/

/-- The parts of the inside of a bracket between the hyphens of ranges. The first hyphen is looked
for behind some characters, and each further one behind two, which end one range and start the
next. -/
def splitRanges : Nat → Nat → List Char → List (List Char)
  | 0, _, cs => [cs]
  | room + 1, offset, cs =>
    match (cs.drop offset).idxOf? '-' with
    | some i =>
      let k := offset + i
      cs.take k :: splitRanges room 2 (cs.drop (k + 1))
    | none => [cs]

/-- The parts with a hyphen at the end of the bracket as a character of the last part. -/
def closeHyphen : List (List Char) → List (List Char)
  | [part, []] => [part ++ ['-']]
  | part :: rest => part :: closeHyphen rest
  | [] => []

/-- The parts without the ranges that are empty. -/
def dropEmptyRanges : List (List Char) → List (List Char)
  | part :: rest =>
    match dropEmptyRanges rest with
    | (high :: after) :: more =>
      match part.getLast? with
      | some low =>
        if high < low then (part.dropLast ++ after) :: more else part :: (high :: after) :: more
      | none => part :: (high :: after) :: more
    | rest => part :: rest
  | [] => []

/-- A character of a bracket, or the mark of a range. -/
inductive Mark where
  | char (c : Char)
  | hyphen
  deriving DecidableEq

/-- The characters of parts with the mark of a range between two parts. -/
def marks (parts : List (List Char)) : List Mark :=
  [Mark.hyphen].intercalate (parts.map fun part => part.map Mark.char)

/-- The ranges of a bracket; a single character is a range. -/
def ranges : List Mark → List (Char × Char)
  | .char low :: .hyphen :: .char high :: rest => (low, high) :: ranges rest
  | .char c :: rest => (c, c) :: ranges rest
  | .hyphen :: rest => ('-', '-') :: ranges rest
  | [] => []

/-- The piece of the inside of a bracket. -/
def bracket (inside : List Char) : Piece :=
  let offset := if inside.head? = some '!' then 2 else 1
  let parts := splitRanges inside.length offset inside
  match marks (dropEmptyRanges (closeHyphen parts)) with
  | [.char '!'] => .any
  | .char '!' :: rest => .oneOf true (ranges rest)
  | marks => .oneOf false (ranges marks)

/-- The inside of a bracket and the rest of the pattern behind it, if the bracket is closed. A
closing bracket that comes first, also behind an exclamation mark, belongs to the inside. -/
def closed? (cs : List Char) : Option (List Char × List Char) :=
  let (first, rest) := match cs with
    | '!' :: ']' :: rest => (['!', ']'], rest)
    | '!' :: rest => (['!'], rest)
    | ']' :: rest => ([']'], rest)
    | rest => ([], rest)
  match rest.dropWhile (· ≠ ']') with
  | _ :: after => some (first ++ rest.takeWhile (· ≠ ']'), after)
  | [] => none

/-- The pieces of a pattern. A bracket that is not closed is a character. -/
def pieces : Nat → List Char → List Piece
  | 0, _ => []
  | _ + 1, [] => []
  | room + 1, '*' :: rest => .star :: pieces room rest
  | room + 1, '?' :: rest => .any :: pieces room rest
  | room + 1, '[' :: rest =>
    match closed? rest with
    | some (inside, after) => bracket inside :: pieces room after
    | none => .char '[' :: pieces room rest
  | room + 1, c :: rest => .char c :: pieces room rest

/-! ## Matching -/

/-- For every end of a list, whether it or a shorter end is marked. -/
def orShorter : List Bool → List Bool
  | [] => []
  | b :: rest =>
    match orShorter rest with
    | next :: more => (b || next) :: next :: more
    | [] => [b]

/-- For every end of a text, from the whole text to the empty one, whether the pieces match it. -/
def matchedEnds (cs : List Char) : List Piece → List Bool
  | [] => List.replicate cs.length false ++ [true]
  | .star :: rest => orShorter (matchedEnds cs rest)
  | p :: rest => List.zipWith (fun c b => p.accepts c && b) cs (matchedEnds cs rest).tail ++ [false]

/-- Whether a pattern matches a text. -/
def accepts (pattern text : String) : Bool :=
  let cs := pattern.toList
  (matchedEnds text.toList (pieces cs.length cs)).headD false

end Glob

end EndpointAtlas
