import EndpointAtlas.Numeric.Binary64
import EndpointAtlas.Text.Blank
import EndpointAtlas.Text.Digit

/-!
# Numbers as texts

`readInteger?` and `Binary64.ofText?` read a number that stands alone in a text. Blanks around it
other than separators are dropped, digits of all scripts count, and single underscores may stand
between digits.
-/

namespace EndpointAtlas

namespace Numeric

/-- A text with the digits of all scripts as the usual ones. -/
def plainDigits (cs : List Char) : List Char :=
  cs.map fun c => match Text.digitValue? c with
    | some n => Char.ofNat ('0'.toNat + n)
    | none => c

/-- A text without the blanks around it, which are not separators, and with the usual digits. -/
def plain (cs : List Char) : List Char :=
  plainDigits (Text.trim (fun c => Text.isBlank c && !Text.isSeparator c) cs)

/-- The sign in front of a text: whether it is a minus, and the rest. -/
def splitSign : List Char → Bool × List Char
  | '-' :: rest => (true, rest)
  | '+' :: rest => (false, rest)
  | rest => (false, rest)

/-- The value of a digit in a base up to 36. -/
def digitIn? (base : Nat) (c : Char) : Option Nat :=
  let value :=
    if '0' ≤ c ∧ c ≤ '9' then c.toNat - '0'.toNat
    else if 'a' ≤ c ∧ c ≤ 'z' then c.toNat - 'a'.toNat + 10
    else if 'A' ≤ c ∧ c ≤ 'Z' then c.toNat - 'A'.toNat + 10
    else base
  if value < base then some value else none

/-- The letter that marks a base behind a zero. -/
def baseMark? : Nat → Option Char
  | 2 => some 'b'
  | 8 => some 'o'
  | 16 => some 'x'
  | _ => none

/-- A text without the mark of a base in front. -/
def dropBaseMark (base : Nat) : List Char → List Char
  | '0' :: c :: rest => if baseMark? base = some c.toLower then rest else '0' :: c :: rest
  | cs => cs

/-- Decimal integers have at most this many digits. -/
def maxDecimalDigits : Nat := 4300

/-- A text without single underscores between digits; none if an underscore stands elsewhere. -/
def dropUnderscores? (isDigit : Char → Bool) : List Char → Option (List Char)
  | a :: '_' :: b :: rest =>
    if isDigit a ∧ isDigit b then (a :: ·) <$> dropUnderscores? isDigit (b :: rest) else none
  | '_' :: _ => none
  | [_, '_'] => none
  | c :: rest => (c :: ·) <$> dropUnderscores? isDigit rest
  | [] => some []

/-- The integer that a text writes in a base. -/
def readInteger? (base : Nat) (cs : List Char) : Option Int := do
  let (negative, cs) := splitSign (plain cs)
  let cs ← dropUnderscores? (fun c => (digitIn? base c).isSome) (dropBaseMark base cs)
  let digits ← cs.mapM (digitIn? base)
  if digits.isEmpty || (base = 10 && maxDecimalDigits < digits.length) then none
  else
    let n := digits.foldl (fun n d => n * base + d) 0
    return if negative then -(n : Int) else n

/-- The words for numbers that are not finite. -/
def infinityWords : List String := ["inf", "infinity"]

end Numeric

namespace Binary64

open Numeric

/-- The exponent at the end of a number: nothing, or a letter and an integer. -/
def exponent? : List Char → Option Int
  | [] => some 0
  | e :: rest =>
    if e.toLower = 'e' then
      let (negative, digits) := splitSign rest
      if digits.isEmpty || !digits.all Char.isDigit then none
      else
        let n := digits.foldl (fun n d => n * 10 + (d.toNat - '0'.toNat)) 0
        some (if negative then -(n : Int) else n)
    else none

/-- The number that digits, a point and an exponent write. -/
def magnitude? (negative : Bool) (cs : List Char) : Option Binary64 := do
  let cs ← dropUnderscores? Char.isDigit cs
  let whole := cs.takeWhile Char.isDigit
  let (fraction, rest) := match cs.dropWhile Char.isDigit with
    | '.' :: rest => (rest.takeWhile Char.isDigit, rest.dropWhile Char.isDigit)
    | rest => ([], rest)
  if whole.isEmpty && fraction.isEmpty then none
  else
    let exponent ← exponent? rest
    let digits := (whole ++ fraction).foldl (fun n d => n * 10 + (d.toNat - '0'.toNat)) 0
    return ofDecimal negative digits (exponent - fraction.length)

/-- The number that a text writes. -/
def ofText? (cs : List Char) : Option Binary64 :=
  let (negative, cs) := splitSign (plain cs)
  let word := String.ofList (cs.map Char.toLower)
  if infinityWords.contains word then some (.infinity negative)
  else if word = "nan" then some .nan
  else magnitude? negative cs

end Binary64

end EndpointAtlas
