import EndpointAtlas.Text.Bytes

/-!
# Texts in wide units

A text can be given in units of two bytes, where a character beyond the first 65536 is a pair of
halves, or in units of four. `ofBytes` finds out which it is: the mark that may open a text tells, or
else the place of the zero bytes among the first four, and a text without either is UTF-8.
-/

namespace EndpointAtlas.Text

/-- The character of a pair of halves. -/
def joinPair (high low : Nat) : Char :=
  Char.ofNat (0x10000 + (high - 0xD800) * 0x400 + (low - 0xDC00))

/-- The characters of code units: a high half followed by a low half is one character, and a half
that stands alone is replaced. -/
def ofUnits : List Nat → List Char
  | [] => []
  | [u] => if 0xD800 ≤ u ∧ u < 0xE000 then ['\uFFFD'] else [Char.ofNat u]
  | u :: v :: rest =>
    if 0xD800 ≤ u ∧ u < 0xDC00 ∧ 0xDC00 ≤ v ∧ v < 0xE000 then joinPair u v :: ofUnits rest
    else if 0xD800 ≤ u ∧ u < 0xE000 then '\uFFFD' :: ofUnits (v :: rest)
    else Char.ofNat u :: ofUnits (v :: rest)

/-- Which byte of a unit comes first. -/
inductive ByteOrder where
  | greatFirst
  | smallFirst
  deriving DecidableEq, Repr

/-- The number that the bytes of a unit make. -/
def ByteOrder.join : ByteOrder → List UInt8 → Nat
  | .greatFirst, bytes => bytes.foldl (fun n b => n * 256 + b.toNat) 0
  | .smallFirst, bytes => bytes.foldr (fun b n => n * 256 + b.toNat) 0

/-- The units of two bytes in a byte string; none if a byte is left. -/
def pairs? (order : ByteOrder) : List UInt8 → Option (List Nat)
  | [] => some []
  | a :: b :: rest => (order.join [a, b] :: ·) <$> pairs? order rest
  | _ => none

/-- The units of four bytes in a byte string; none if bytes are left. -/
def quads? (order : ByteOrder) : List UInt8 → Option (List Nat)
  | [] => some []
  | a :: b :: c :: d :: rest => (order.join [a, b, c, d] :: ·) <$> quads? order rest
  | _ => none

/-- The characters of units of two bytes. -/
def ofPairs? (order : ByteOrder) (bytes : List UInt8) : Option (List Char) :=
  ofUnits <$> pairs? order bytes

/-- The characters of units of four bytes. -/
def ofQuads? (order : ByteOrder) (bytes : List UInt8) : Option (List Char) := do
  (← quads? order bytes).mapM (scalarFrom? 0)

/-- The characters of a byte string without a mark in front: the zeros among the first bytes tell how
they are given. -/
def ofUnmarked (bytes : List UInt8) : Option (List Char) :=
  match bytes with
  | [0x00, _] => ofPairs? .greatFirst bytes
  | [_, 0x00] => ofPairs? .smallFirst bytes
  | 0x00 :: b :: _ :: _ :: _ =>
    if b = 0 then ofQuads? .greatFirst bytes else ofPairs? .greatFirst bytes
  | _ :: 0x00 :: c :: d :: _ =>
    if c = 0 ∧ d = 0 then ofQuads? .smallFirst bytes else ofPairs? .smallFirst bytes
  | _ => decode bytes

/-- The characters of a byte string. A mark in front that tells how they are given is no part of
them. -/
def ofBytes (bytes : List UInt8) : Option (List Char) :=
  match bytes with
  | 0x00 :: 0x00 :: 0xFE :: 0xFF :: rest => ofQuads? .greatFirst rest
  | 0xFF :: 0xFE :: 0x00 :: 0x00 :: rest => ofQuads? .smallFirst rest
  | 0xFE :: 0xFF :: rest => ofPairs? .greatFirst rest
  | 0xFF :: 0xFE :: rest => ofPairs? .smallFirst rest
  | 0xEF :: 0xBB :: 0xBF :: rest => decode rest
  | _ => ofUnmarked bytes

end EndpointAtlas.Text
