import EndpointAtlas.Json.Reader
import EndpointAtlas.Yaml.Token

/-!
# JSON as it is written

A `Spelling` is a JSON value with everything that its text can choose: the blanks between its parts,
the form of its numbers, and for each character of a text whether it stands for itself or is
escaped. It has its `chars` and its `value`.

YAML takes most of these texts apart in the same way. `Spelling.isShared` says which: it leaves out
tabs between the parts, integers that are too long to be read, line ends between a key and its colon
and keys that are too long to be one, halves of pairs and characters that YAML does not take as they
are. Of the parts only numbers can have another value there: `Spelling.yamlValue` is the value with
those that YAML takes for texts.
-/

namespace EndpointAtlas.Json

/-! ## Blanks -/

/-- Blanks between the parts of a text. -/
structure Blanks where
  chars : List Char
  isBlank : ∀ c ∈ chars, isBlank c = true

/-- Whether there is no tab among blanks. -/
def Blanks.isShared (b : Blanks) : Bool := b.chars.all fun c => c ≠ '\t'

/-! ## Numbers -/

/-- One or more digits. -/
structure Digits where
  chars : List Char
  ne_nil : chars ≠ []
  isDigit : ∀ c ∈ chars, c.isDigit = true

/-- A sign that may be left out. -/
inductive Sign where
  | none
  | plus
  | minus
  deriving DecidableEq

/-- A sign as it is written. -/
def Sign.text : Sign → List Char
  | none => []
  | plus => ['+']
  | minus => ['-']

/-- A number with a sign. -/
def Sign.apply : Sign → Nat → Int
  | minus, n => -n
  | _, n => n

/-- The exponent of a number. -/
structure Exponent where
  mark : Char
  sign : Sign
  digits : Digits
  isMark : mark = 'e' ∨ mark = 'E'

/-- An exponent with a small mark. -/
def Exponent.small (sign : Sign) (digits : Digits) : Exponent := ⟨'e', sign, digits, .inl rfl⟩

/-- A number: it has no zeros in front. -/
structure Numeral where
  negative : Bool
  whole : Digits
  fraction : Option Digits
  exponent : Option Exponent
  noZeros : whole.chars.head? = some '0' → whole.chars = ['0']

namespace Numeral

/-- The point and the digits behind it. -/
def fractionText (n : Numeral) : List Char :=
  match n.fraction with
  | none => []
  | some digits => '.' :: digits.chars

/-- The digits behind the point. -/
def fractionDigits (n : Numeral) : List Char :=
  match n.fraction with
  | none => []
  | some digits => digits.chars

/-- The exponent with its mark. -/
def exponentText (n : Numeral) : List Char :=
  match n.exponent with
  | none => []
  | some e => e.mark :: (e.sign.text ++ e.digits.chars)

/-- The exponent as a number. -/
def exponentValue (n : Numeral) : Int :=
  match n.exponent with
  | none => 0
  | some e => e.sign.apply (decimalValue e.digits.chars)

/-- A number without its sign. -/
def magnitudeText (n : Numeral) : List Char := n.whole.chars ++ n.fractionText ++ n.exponentText

/-- A number as it is written. -/
def text (n : Numeral) : List Char := (if n.negative then ['-'] else []) ++ n.magnitudeText

/-- Whether a number has neither a point nor an exponent. -/
def isInteger (n : Numeral) : Bool := n.fraction.isNone && n.exponent.isNone

/-- The value of a number. -/
def value (n : Numeral) : Value :=
  if n.isInteger then
    .int (if n.negative then -decimalValue n.whole.chars else decimalValue n.whole.chars)
  else
    .float (.ofDecimal n.negative (decimalValue (n.whole.chars ++ n.fractionDigits))
      (n.exponentValue - n.fractionDigits.length))

/-- Whether an integer is short enough to be read. -/
def isReadable (n : Numeral) : Bool := !n.isInteger || n.whole.chars.length ≤ maxIntegerDigits

/-- Whether an exponent, if there is one, has a sign and a fraction in front of it. -/
def hasPlainExponent (n : Numeral) : Bool :=
  match n.exponent with
  | none => true
  | some e => n.fraction.isSome && e.sign ≠ .none

/-- The value of a number in YAML: with an exponent that has no sign, or no fraction in front of it,
it is a text. -/
def yamlValue (n : Numeral) : Value :=
  if n.hasPlainExponent then n.value else .str (String.ofList n.text)

end Numeral

/-! ## Texts -/

/-- A character of a text, or half of one: it stands for itself, or is escaped by a letter or by
four digits. -/
inductive Piece where
  | raw (c : Char) (isRaw : 32 ≤ c.toNat ∧ c ≠ '"' ∧ c ≠ '\\')
  | letter (letter c : Char) (escapes : escaped? letter = some c)
  | number (digits : List Char) (values : List Nat) (isHex : digits.mapM hexValue? = some values)
      (length_eq : digits.length = 4)

namespace Piece

/-- A piece as it is written. -/
def text : Piece → List Char
  | raw c _ => [c]
  | letter l _ _ => ['\\', l]
  | number digits _ _ _ => '\\' :: 'u' :: digits

/-- The code unit of a piece. -/
def unit : Piece → Nat
  | raw c _ => c.toNat
  | letter _ c _ => c.toNat
  | number _ values _ _ => ofDigits 16 values

/-- Whether YAML takes a piece for the same character. -/
def isShared : Piece → Bool
  | raw c _ => Yaml.isAllowed c && !Yaml.isBreak c
  | letter _ _ _ => true
  | number _ values _ _ => ofDigits 16 values < 0xD800 || 0xE000 ≤ ofDigits 16 values

end Piece

/-- The characters that pieces write. -/
def contentOf (pieces : List Piece) : List Char := Text.ofUnits (pieces.map Piece.unit)

/-- Pieces as they are written between quotes. -/
def innerText (pieces : List Piece) : List Char := pieces.flatMap Piece.text

/-- A text as it is written. -/
def quotedText (pieces : List Piece) : List Char := '"' :: (innerText pieces ++ ['"'])

/-- The key of a member, with the blanks in front of its colon. -/
structure Key where
  pieces : List Piece
  gap : Blanks

/-- Whether YAML takes a key for one: its colon stands on the same line, near enough. -/
def Key.isShared (k : Key) : Bool :=
  k.pieces.all Piece.isShared && k.gap.chars.all (· = ' ') &&
    (quotedText k.pieces).length + k.gap.chars.length ≤ Yaml.Scan.keyLimit

/-! ## Values -/

/-- The words of JSON. -/
inductive Word where
  | null
  | bool (b : Bool)
  deriving DecidableEq

/-- A word as it is written. -/
def Word.text : Word → List Char
  | null => "null".toList
  | bool true => "true".toList
  | bool false => "false".toList

/-- The value of a word. -/
def Word.value : Word → Value
  | null => .null
  | bool b => .bool b

mutual

/-- A value as it is written, with the blanks inside of it. -/
inductive Spelling where
  | word (w : Word)
  | number (n : Numeral)
  | text (pieces : List Piece)
  | emptyList (gap : Blanks)
  | list (before : Blanks) (items : Items)
  | emptyMap (gap : Blanks)
  | map (before : Blanks) (pairs : Pairs)

/-- The items of a list, with the blanks behind each, and in front of the next one. -/
inductive Items where
  | last (item : Spelling) (behind : Blanks)
  | more (item : Spelling) (behind next : Blanks) (rest : Items)

/-- The members of a mapping, with the blanks between the colon and the value, behind the value, and
in front of the next member. -/
inductive Pairs where
  | last (key : Key) (before : Blanks) (item : Spelling) (behind : Blanks)
  | more (key : Key) (before : Blanks) (item : Spelling) (behind next : Blanks) (rest : Pairs)

end

mutual

/-- A value as it is written, with a change made to the blanks. -/
def Spelling.textWith (change : List Char → List Char) : Spelling → List Char
  | .word w => w.text
  | .number n => n.text
  | .text pieces => quotedText pieces
  | .emptyList gap => '[' :: (change gap.chars ++ [']'])
  | .list before items => '[' :: (change before.chars ++ items.textWith change)
  | .emptyMap gap => '{' :: (change gap.chars ++ ['}'])
  | .map before pairs => '{' :: (change before.chars ++ pairs.textWith change)

/-- Items with the bracket behind them. -/
def Items.textWith (change : List Char → List Char) : Items → List Char
  | .last item behind => item.textWith change ++ (change behind.chars ++ [']'])
  | .more item behind next rest =>
    item.textWith change ++
      (change behind.chars ++ ',' :: (change next.chars ++ rest.textWith change))

/-- Members with the brace behind them. -/
def Pairs.textWith (change : List Char → List Char) : Pairs → List Char
  | .last key before item behind =>
    quotedText key.pieces ++ (change key.gap.chars ++ ':' :: (change before.chars ++
      (item.textWith change ++ (change behind.chars ++ ['}']))))
  | .more key before item behind next rest =>
    quotedText key.pieces ++ (change key.gap.chars ++ ':' :: (change before.chars ++
      (item.textWith change ++
        (change behind.chars ++ ',' :: (change next.chars ++ rest.textWith change)))))

end

/-- A value as it is written. -/
def Spelling.chars (v : Spelling) : List Char := v.textWith id

mutual

/-- The value that is written, given the values of numbers. -/
def Spelling.valueWith (number : Numeral → Value) : Spelling → Value
  | .word w => w.value
  | .number n => number n
  | .text pieces => .str (String.ofList (contentOf pieces))
  | .emptyList _ => .list []
  | .list _ items => .list (items.valuesWith number)
  | .emptyMap _ => .map []
  | .map _ pairs => .map (Members.ofList (pairs.membersWith number))

/-- The values of items. -/
def Items.valuesWith (number : Numeral → Value) : Items → List Value
  | .last item _ => [item.valueWith number]
  | .more item _ _ rest => item.valueWith number :: rest.valuesWith number

/-- Members, as they follow each other. -/
def Pairs.membersWith (number : Numeral → Value) : Pairs → List (Scalar × Value)
  | .last key _ item _ => [(.str (String.ofList (contentOf key.pieces)), item.valueWith number)]
  | .more key _ item _ _ rest =>
    (.str (String.ofList (contentOf key.pieces)), item.valueWith number) :: rest.membersWith number

end

/-- The value that is written. -/
def Spelling.value (v : Spelling) : Value := v.valueWith Numeral.value

/-- The value in YAML. -/
def Spelling.yamlValue (v : Spelling) : Value := v.valueWith Numeral.yamlValue

mutual

/-- Whether YAML takes the text of a value apart in the same way. -/
def Spelling.isShared : Spelling → Bool
  | .word _ => true
  | .number n => n.isReadable
  | .text pieces => pieces.all Piece.isShared
  | .emptyList gap => gap.isShared
  | .list before items => before.isShared && items.isShared
  | .emptyMap gap => gap.isShared
  | .map before pairs => before.isShared && pairs.isShared

def Items.isShared : Items → Bool
  | .last item behind => item.isShared && behind.isShared
  | .more item behind next rest =>
    item.isShared && behind.isShared && next.isShared && rest.isShared

def Pairs.isShared : Pairs → Bool
  | .last key before item behind =>
    key.isShared && before.isShared && item.isShared && behind.isShared
  | .more key before item behind next rest =>
    key.isShared && before.isShared && item.isShared && behind.isShared && next.isShared &&
      rest.isShared

end

end EndpointAtlas.Json
