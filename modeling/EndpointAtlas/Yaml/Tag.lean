import EndpointAtlas.Text.Split
import EndpointAtlas.Yaml.Cursor

/-!
# Types of YAML nodes

A node has a tag that names its type. A plain scalar without a tag gets the type whose form its text
has; the forms are those of version 1.1. `Tag.ofPlain` looks only at the forms that can start with
the first character of the text, and takes the first that fits.
-/

namespace EndpointAtlas.Yaml

/-- The type of a node. -/
inductive Tag where
  | null
  | bool
  | int
  | float
  | binary
  | timestamp
  | merge
  | value
  | str
  | seq
  | map
  | set
  /-- A list of mappings with one pair each. -/
  | entries
  | other
  deriving DecidableEq, Repr

namespace Tag

/-- What the tags of the language start with. -/
def space : List Char := "tag:yaml.org,2002:".toList

/-- The names of the types. -/
def names : List (String × Tag) :=
  [("null", .null), ("bool", .bool), ("int", .int), ("float", .float), ("binary", .binary),
    ("timestamp", .timestamp), ("merge", .merge), ("value", .value), ("str", .str), ("seq", .seq),
    ("map", .map), ("set", .set), ("omap", .entries), ("pairs", .entries)]

/-- The type that a tag names. -/
def ofUri (uri : List Char) : Tag :=
  match space.isPrefixOf? uri with
  | some name => (names.lookup (String.ofList name)).getD .other
  | none => .other

end Tag

/-! ## Forms of plain scalars -/

namespace Form

/-- Whether a text is one of some words. -/
def isWord (words : List String) (cs : List Char) : Bool := words.contains (String.ofList cs)

/-- The words for null. -/
def nullWords : List String := ["", "~", "null", "Null", "NULL"]

/-- The words for truth values. -/
def boolWords : List String :=
  ["yes", "Yes", "YES", "no", "No", "NO", "true", "True", "TRUE", "false", "False", "FALSE",
    "on", "On", "ON", "off", "Off", "OFF"]

/-- A text without a sign in front. -/
def unsigned : List Char → List Char
  | '+' :: cs => cs
  | '-' :: cs => cs
  | cs => cs

/-- Whether a character is a digit or an underscore. -/
def isSpacedDigit (c : Char) : Bool := c.isDigit || c = '_'

/-- Whether a text is a number below sixty in one or two digits. -/
def isSixtieth : List Char → Bool
  | [a] => a.isDigit
  | [a, b] => '0' ≤ a && a ≤ '5' && b.isDigit
  | _ => false

/-- Whether a text is digits with underscores, the first one a digit that passes a test. -/
def isSpacedNumber (first : Char → Bool) : List Char → Bool
  | c :: rest => first c && rest.all isSpacedDigit
  | [] => false

/-- Whether a character is a digit other than zero. -/
def isPositiveDigit (c : Char) : Bool := c.isDigit && c ≠ '0'

/-- Whether a text has the form of an integer: binary, octal, decimal, hexadecimal or to base
sixty. -/
def isInt (cs : List Char) : Bool :=
  match unsigned cs with
  | '0' :: 'b' :: digits => !digits.isEmpty && digits.all fun c => c = '0' || c = '1' || c = '_'
  | '0' :: 'x' :: digits =>
    !digits.isEmpty && digits.all fun c =>
      c.isDigit || ('a' ≤ c && c ≤ 'f') || ('A' ≤ c && c ≤ 'F') || c = '_'
  | ['0'] => true
  | '0' :: digits => digits.all fun c => ('0' ≤ c && c ≤ '7') || c = '_'
  | cs =>
    match Text.splitOn ':' cs with
    | [whole] => isSpacedNumber isPositiveDigit whole
    | whole :: parts => isSpacedNumber isPositiveDigit whole && parts.all isSixtieth
    | [] => false

/-- Whether a text is an exponent with a sign, or nothing. -/
def isExponent : List Char → Bool
  | [] => true
  | e :: sign :: digits =>
    (e = 'e' || e = 'E') && (sign = '+' || sign = '-') && !digits.isEmpty && digits.all Char.isDigit
  | _ => false

/-- Whether a text is digits with underscores and perhaps an exponent. -/
def isFraction (cs : List Char) : Bool := isExponent (cs.dropWhile isSpacedDigit)

/-- Whether a text is a number to base sixty up to the point and digits behind it. -/
def isSixtiethFloat (cs : List Char) : Bool :=
  let whole := cs.takeWhile (· ≠ '.')
  match Text.splitOn ':' whole, cs.dropWhile (· ≠ '.') with
  | first :: part :: parts, '.' :: fraction =>
    isSpacedNumber Char.isDigit first && (part :: parts).all isSixtieth &&
      fraction.all isSpacedDigit
  | _, _ => false

/-- The words for infinity. -/
def infinityWords : List String := [".inf", ".Inf", ".INF"]

/-- The words for what is not a number. -/
def nanWords : List String := [".nan", ".NaN", ".NAN"]

/-- Whether a text is a point with a fraction behind it. -/
def isPointed : List Char → Bool
  | '.' :: fraction => isFraction fraction
  | _ => false

/-- Whether a text is a point with a fraction behind it that starts with a digit. -/
def isLeadingPoint : List Char → Bool
  | '.' :: d :: fraction => d.isDigit && isFraction fraction
  | _ => false

/-- Whether a text has the form of a number with a point. -/
def isFloat (cs : List Char) : Bool :=
  let body := unsigned cs
  let pointed := isSpacedNumber Char.isDigit (body.takeWhile isSpacedDigit) &&
    isPointed (body.dropWhile isSpacedDigit)
  pointed || isLeadingPoint cs || isSixtiethFloat body || isWord infinityWords body ||
    isWord nanWords cs

/-- One or two digits at the start of a text, and the rest. -/
def oneOrTwoDigits : List Char → Option (List Char × List Char)
  | a :: b :: rest =>
    if a.isDigit && b.isDigit then some ([a, b], rest)
    else if a.isDigit then some ([a], b :: rest)
    else none
  | [a] => if a.isDigit then some ([a], []) else none
  | [] => none

/-- Two digits at the start of a text, and the rest. -/
def twoDigits : List Char → Option (List Char × List Char)
  | a :: b :: rest => if a.isDigit && b.isDigit then some ([a, b], rest) else none
  | _ => none

/-- A time zone: universal time, or a sign with hours and perhaps minutes. -/
inductive Zone where
  | universal
  | offset (negative : Bool) (hours minutes : List Char)

/-- The parts of a time as they are written. -/
structure Clock where
  hour : List Char
  minute : List Char
  second : List Char
  fraction : List Char
  zone : Option Zone

/-- The parts of a date, and of a time if there is one. -/
structure Timestamp where
  year : List Char
  month : List Char
  day : List Char
  clock : Option Clock

/-- The time zone that a text writes; blanks may stand before it. -/
def zone? (cs : List Char) : Option (Option Zone) :=
  if cs.isEmpty then some none
  else
    let offset? (negative : Bool) (cs : List Char) : Option (Option Zone) := do
      let (hours, rest) ← oneOrTwoDigits cs
      match rest with
      | [] => return some (.offset negative hours [])
      | ':' :: rest =>
        let (minutes, rest) ← twoDigits rest
        if rest.isEmpty then return some (.offset negative hours minutes) else none
      | _ => none
    match cs.dropWhile fun c => c = ' ' || c = '\t' with
    | ['Z'] => some (some .universal)
    | '+' :: rest => offset? false rest
    | '-' :: rest => offset? true rest
    | _ => none

/-- The time that a text writes. -/
def clock? (cs : List Char) : Option Clock := do
  let (hour, rest) ← oneOrTwoDigits cs
  match rest with
  | ':' :: rest =>
    let (minute, rest) ← twoDigits rest
    match rest with
    | ':' :: rest =>
      let (second, rest) ← twoDigits rest
      let (fraction, rest) := match rest with
        | '.' :: rest => (rest.takeWhile Char.isDigit, rest.dropWhile Char.isDigit)
        | rest => ([], rest)
      return ⟨hour, minute, second, fraction, ← zone? rest⟩
    | _ => none
  | _ => none

/-- The separator of date and time, taken off: a letter, or blanks. -/
def afterDate? : List Char → Option (List Char)
  | 'T' :: rest => some rest
  | 't' :: rest => some rest
  | c :: rest =>
    if c = ' ' ∨ c = '\t' then some (rest.dropWhile fun c => c = ' ' || c = '\t') else none
  | [] => none

/-- The date, and perhaps the time, that a text writes. -/
def timestamp? (cs : List Char) : Option Timestamp := do
  let (year, rest) ← match cs with
    | a :: b :: c :: d :: '-' :: rest =>
      if [a, b, c, d].all Char.isDigit then some ([a, b, c, d], rest) else none
    | _ => none
  let (month, rest) ← oneOrTwoDigits rest
  match rest with
  | '-' :: rest =>
    let (day, rest) ← oneOrTwoDigits rest
    if rest.isEmpty then return ⟨year, month, day, none⟩
    else
      let clock ← clock? (← afterDate? rest)
      return ⟨year, month, day, some clock⟩
  | _ => none

/-- Whether a text has the form of a date or a moment. A date alone has two digits for month and
day. -/
def isTimestamp (cs : List Char) : Bool :=
  match timestamp? cs with
  | some t => t.clock.isSome || (t.month.length = 2 && t.day.length = 2)
  | none => false

end Form

/-- The type of a plain scalar. A line feed at its end does not count. -/
def Tag.ofPlain (text : List Char) : Tag :=
  let cs := if text.getLast? = some '\n' then text.dropLast else text
  let first := text.headD endMark
  if text.isEmpty then .null
  else if "yYnNtTfFoO".toList.contains first && Form.isWord Form.boolWords cs then .bool
  else if "-+0123456789.".toList.contains first && Form.isFloat cs then .float
  else if "-+0123456789".toList.contains first && Form.isInt cs then .int
  else if cs = ['<', '<'] then .merge
  else if "~nN".toList.contains first && Form.isWord Form.nullWords cs then .null
  else if first.isDigit && Form.isTimestamp cs then .timestamp
  else if cs = ['='] then .value
  else if [['!'], ['&'], ['*']].contains cs then .other
  else .str

end EndpointAtlas.Yaml
