import EndpointAtlas.Json.Reader
import EndpointAtlas.Text.LabelChar
import EndpointAtlas.Text.Lower
import EndpointAtlas.Text.Punycode
import EndpointAtlas.Text.Split

/-!
# Hosts

The host of an address is a number of four or of sixteen bytes or a name. A name in ASCII may be
any; one with other characters is made of labels, each of which is written in ASCII.
-/

namespace EndpointAtlas.Host

/-! ## Numbers of four bytes -/

/-- Where a reading of four groups of digits can stand behind one more character. Before the first
digit of a group it stands at an even number, inside the group at the next odd one; any character
may stand between two groups. -/
def groupSteps (c : Char) (place : Nat) : List Nat :=
  if place % 2 = 0 then if c.isDigit then [place + 1] else []
  else (if c.isDigit then [place] else []) ++ if place < 7 then [place + 1] else []

/-- Whether a host is four groups of digits with a character between every two, so that it has to be
a number of four bytes. -/
def looksNumeric (host : List Char) : Bool :=
  (host.foldl (fun places c => (places.flatMap (groupSteps c)).eraseDups) [0]).contains 7

/-- Whether a text is a byte in decimal, without zeros in front. -/
def isByte (digits : List Char) : Bool :=
  !digits.isEmpty && digits.all Char.isDigit && digits.length ≤ 3 &&
    (digits = ['0'] || digits.head? ≠ some '0') && Json.decimalValue digits ≤ 255

/-- Whether a text is four bytes with points between them. -/
def isFourBytes (cs : List Char) : Bool :=
  let parts := Text.splitOn '.' cs
  parts.length = 4 && parts.all isByte

/-! ## Numbers of sixteen bytes -/

/-- Whether a text is a number of two bytes in hexadecimal. -/
def isWord (digits : List Char) : Bool :=
  !digits.isEmpty && digits.length ≤ 4 && digits.all fun c => (Json.hexValue? c).isSome

/-- Words between colons, the last of which may be four bytes in decimal that stand for two words;
none if it has a point and is not four bytes. -/
def words? (cs : List Char) : Option (List (List Char)) :=
  let parts := Text.splitOn ':' cs
  match parts.getLast? with
  | some last =>
    if last.contains '.' then
      if isFourBytes last then some (parts.dropLast ++ [['0'], ['0']]) else none
    else some parts
  | none => some parts

/-- Whether words behind or before a gap are words, where nothing may stand for none. -/
def areWords (words : List (List Char)) : Bool := words = [[]] || words.all isWord

/-- Whether a text is eight words with colons between them. One gap of two colons in a row may stand
for words that are left out. -/
def isEightWords (cs : List Char) : Bool :=
  match words? cs with
  | none => false
  | some words =>
    if words.length < 3 || 9 < words.length then false
    else
      let inner := (words.drop 1).dropLast
      match inner.count [] with
      | 0 => words.length = 8 && words.all isWord
      | 1 =>
        let before := words.take (inner.idxOf [] + 1)
        let behind := words.drop (inner.idxOf [] + 2)
        let isGiven (ws : List (List Char)) : Bool := ws ≠ [[]]
        areWords before && areWords behind &&
          (if isGiven before then before.length else 0) +
            (if isGiven behind then behind.length else 0) < 8
      | _ => false

/-- Whether a text is a number of sixteen bytes, perhaps with a zone behind a percent sign. -/
def isSixteenBytes (cs : List Char) : Bool :=
  let number := cs.takeWhile (· ≠ '%')
  match cs.dropWhile (· ≠ '%') with
  | [] => isEightWords number
  | _ :: zone => !zone.isEmpty && !zone.contains '%' && isEightWords number

/-! ## Names -/

/-- The characters that a name in ASCII holds as they are; others are escaped. -/
def isNameChar (c : Char) : Bool :=
  c.isAlphanum || "-._~!$&'()*+,;=\"`\x7b\x7d%|\\".toList.contains c

/-- The characters that end labels. -/
def labelEnds : List Char := ['.', '\u3002', '\uFF0E', '\uFF61']

/-- Whether a label may hold a character between two others. A middle dot stands between two `l`
only. -/
def mayStand (before : Option Char) (c : Char) (behind : Option Char) : Bool :=
  Text.isLabelChar c || (c = '\u00B7' && before = some 'l' && behind = some 'l')

/-- Whether all characters of a label may stand where they are, behind a first one. -/
def allMayStand : Option Char → List Char → Bool
  | _, [] => true
  | before, c :: rest => mayStand before c rest.head? && allMayStand (some c) rest

/-- Whether a text is a label: hyphens stand neither at its ends nor at its third and fourth place
together. -/
def isLabel (cs : List Char) : Bool :=
  !cs.isEmpty && cs.head? ≠ some '-' && cs.getLast? ≠ some '-' &&
    (cs.drop 2).take 2 ≠ ['-', '-'] && allMayStand none cs

/-- What a label that stands for one with other characters starts with. -/
def labelMark : List Char := "xn--".toList

/-- The longest label. -/
def maxLabel : Nat := 63

/-- A label in ASCII, if it is one. -/
def asciiLabel? (label : List Char) : Option (List Char) :=
  let written : Option (List Char) :=
    if label.all Text.Punycode.isAscii then
      match labelMark.isPrefixOf? label with
      | some rest => if rest.isEmpty || rest.getLast? = some '-' then none else some label
      | none => if isLabel label then some label else none
    else if isLabel label then some (labelMark ++ Text.Punycode.encode label)
    else none
  written.filter fun cs => cs.length ≤ maxLabel

/-- The longest name of labels; an end behind the last label is not counted. -/
def maxName : Nat := 253

/-- A name of labels in ASCII, if it is one. -/
def labels? (host : List Char) : Option (List Char) := do
  let labels := Text.splitOn '.' (host.map fun c => if labelEnds.contains c then '.' else c)
  let isEnded := labels.getLast? = some []
  let written ← (if isEnded then labels.dropLast else labels).mapM asciiLabel?
  let name := ['.'].intercalate written
  if written.isEmpty || maxName < name.length then none
  else return if isEnded then name ++ ['.'] else name

end EndpointAtlas.Host
