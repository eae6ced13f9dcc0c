import EndpointAtlas.Text.Units
import EndpointAtlas.Value.Equality

/-!
# Reading JSON

`Json.read?` reads one JSON text. Members keep their order, a repeated key keeps its first position
and has its last value, and a number is an integer exactly if it has neither a point nor an
exponent. `NaN`, `Infinity` and `-Infinity` are read as numbers.

An escape can write one half of a pair alone. A reader whose texts are made of code units keeps such
a half; here texts are made of characters, which it is not, and it is read as U+FFFD.

The functions return what they read with the characters behind it. Recursion into lists and
mappings is bounded by the length of the text, since each value takes at least one character.
-/

namespace EndpointAtlas.Json

/-- The four blanks of JSON. -/
def isBlank (c : Char) : Bool := c = ' ' || c = '\t' || c = '\n' || c = '\r'

/-- The characters behind the blanks. -/
def skipBlanks (cs : List Char) : List Char := cs.dropWhile isBlank

/-- The value of a hexadecimal digit. -/
def hexValue? (c : Char) : Option Nat :=
  if '0' ≤ c ∧ c ≤ '9' then some (c.toNat - '0'.toNat)
  else if 'a' ≤ c ∧ c ≤ 'f' then some (c.toNat - 'a'.toNat + 10)
  else if 'A' ≤ c ∧ c ≤ 'F' then some (c.toNat - 'A'.toNat + 10)
  else none

/-- The number written by digits of a base. -/
def ofDigits (base : Nat) (digits : List Nat) : Nat := digits.foldl (fun n d => n * base + d) 0

/-- The number written by decimal digits. -/
def decimalValue (digits : List Char) : Nat :=
  ofDigits 10 (digits.map fun c => c.toNat - '0'.toNat)

/-- The character of a one-letter escape. -/
def escaped? : Char → Option Char
  | '"' => some '"'
  | '\\' => some '\\'
  | '/' => some '/'
  | 'b' => some '\x08'
  | 'f' => some '\x0c'
  | 'n' => some '\n'
  | 'r' => some '\r'
  | 't' => some '\t'
  | _ => none

/-- The code units of a text up to its closing quote. An escape by number gives the number, which
may be one half of a pair. -/
def readUnits : List Char → Option (List Nat × List Char)
  | [] => none
  | '"' :: rest => some ([], rest)
  | '\\' :: 'u' :: a :: b :: c :: d :: rest => do
    let unit ← [a, b, c, d].mapM hexValue?
    let (units, rest) ← readUnits rest
    return (ofDigits 16 unit :: units, rest)
  | '\\' :: c :: rest => do
    let c ← escaped? c
    let (units, rest) ← readUnits rest
    return (c.toNat :: units, rest)
  | c :: rest =>
    if c.toNat < 32 then none
    else do
      let (units, rest) ← readUnits rest
      return (c.toNat :: units, rest)

/-- A text behind its opening quote. -/
def readText (cs : List Char) : Option (String × List Char) := do
  let (units, rest) ← readUnits cs
  return (String.ofList (Text.ofUnits units), rest)

/-- Integers have at most this many digits. -/
def maxIntegerDigits : Nat := 4300

/-- The digits in front of the point of a number. A leading zero stands alone. -/
def readWhole : List Char → List Char × List Char
  | '0' :: rest => (['0'], rest)
  | cs => (cs.takeWhile Char.isDigit, cs.dropWhile Char.isDigit)

/-- The part of a number behind its point: digits, or nothing. -/
def readFraction : List Char → List Char × List Char
  | '.' :: d :: rest =>
    if d.isDigit then ((d :: rest).takeWhile Char.isDigit, (d :: rest).dropWhile Char.isDigit)
    else ([], '.' :: d :: rest)
  | rest => ([], rest)

/-- The exponent of a number, if it has one. -/
def readExponent (cs : List Char) : Option Int × List Char :=
  match cs with
  | e :: rest =>
    if e = 'e' ∨ e = 'E' then
      let (sign, digits) := match rest with
        | '-' :: digits => (-1, digits)
        | '+' :: digits => (1, digits)
        | digits => ((1 : Int), digits)
      match digits.takeWhile Char.isDigit with
      | [] => (none, cs)
      | ds => (some (sign * decimalValue ds), digits.dropWhile Char.isDigit)
    else (none, cs)
  | [] => (none, cs)

/-- An unsigned number. -/
def readMagnitude (negative : Bool) (cs : List Char) : Option (Value × List Char) :=
  let (whole, rest) := readWhole cs
  if whole.isEmpty then none
  else
    let (fraction, rest) := readFraction rest
    let (exponent, rest) := readExponent rest
    if fraction.isEmpty ∧ exponent.isNone then
      if maxIntegerDigits < whole.length then none
      else
        let n : Int := decimalValue whole
        some (.int (if negative then -n else n), rest)
    else
      let digits := decimalValue (whole ++ fraction)
      some (.float (.ofDecimal negative digits (exponent.getD 0 - fraction.length)), rest)

/-- The word at the start of a text, if it is the expected one. -/
def readWord (word : String) (v : Value) (cs : List Char) : Option (Value × List Char) :=
  let w := word.toList
  if w.isPrefixOf cs then some (v, cs.drop w.length) else none

/-- A value that is neither a list nor a mapping nor a text. -/
def readAtom : List Char → Option (Value × List Char)
  | 'n' :: rest => readWord "null" .null ('n' :: rest)
  | 't' :: rest => readWord "true" (.bool true) ('t' :: rest)
  | 'f' :: rest => readWord "false" (.bool false) ('f' :: rest)
  | 'N' :: rest => readWord "NaN" (.float .nan) ('N' :: rest)
  | 'I' :: rest => readWord "Infinity" (.float (.infinity false)) ('I' :: rest)
  | '-' :: 'I' :: rest => readWord "Infinity" (.float (.infinity true)) ('I' :: rest)
  | '-' :: rest => readMagnitude true rest
  | rest => readMagnitude false rest

mutual

/-- A value, with room for so many values inside each other and one behind the other. -/
def readValue : Nat → List Char → Option (Value × List Char)
  | 0, _ => none
  | room + 1, cs =>
    match cs with
    | '"' :: rest => do
      let (s, rest) ← readText rest
      return (.str s, rest)
    | '[' :: rest =>
      match skipBlanks rest with
      | ']' :: rest => some (.list [], rest)
      | rest => do
        let (items, rest) ← readItems room rest
        return (.list items, rest)
    | '{' :: rest =>
      match skipBlanks rest with
      | '}' :: rest => some (.map [], rest)
      | rest => do
        let (pairs, rest) ← readPairs room rest
        return (.map (Members.ofList pairs), rest)
    | cs => readAtom cs

/-- The items of a list up to its closing bracket. -/
def readItems : Nat → List Char → Option (List Value × List Char)
  | 0, _ => none
  | room + 1, cs => do
    let (v, rest) ← readValue room cs
    match skipBlanks rest with
    | ']' :: rest => return ([v], rest)
    | ',' :: rest =>
      let (items, rest) ← readItems room (skipBlanks rest)
      return (v :: items, rest)
    | _ => none

/-- The members of a mapping up to its closing brace. -/
def readPairs : Nat → List Char → Option (List (Scalar × Value) × List Char)
  | 0, _ => none
  | room + 1, cs =>
    match cs with
    | '"' :: rest => do
      let (key, rest) ← readText rest
      match skipBlanks rest with
      | ':' :: rest =>
        let (v, rest) ← readValue room (skipBlanks rest)
        match skipBlanks rest with
        | '}' :: rest => return ([(.str key, v)], rest)
        | ',' :: rest =>
          let (pairs, rest) ← readPairs room (skipBlanks rest)
          return ((.str key, v) :: pairs, rest)
        | _ => none
      | _ => none
    | _ => none

end

/-- The value of a JSON text; `none` if it is not one. -/
def read? (cs : List Char) : Option Value := do
  let (v, rest) ← readValue (2 * cs.length + 2) (skipBlanks cs)
  if (skipBlanks rest).isEmpty then some v else none

end EndpointAtlas.Json
