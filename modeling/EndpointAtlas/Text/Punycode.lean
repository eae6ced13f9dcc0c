/-!
# Labels in ASCII

`Punycode.encode` writes a text with the characters of ASCII alone: first those of the text that are
in ASCII, in order, then digits to base 36 that say where the others stand. They are put in by
ascending code point, and each is given by its distance from the one before, counted in the steps
that a reader takes over all code points and places. How many digits a distance needs is foreseen by
a bias, which follows the distances so far.
-/

namespace EndpointAtlas.Text.Punycode

/-- The digit of a value below 36. -/
def digit (n : Nat) : Char := if n < 26 then Char.ofNat (97 + n) else Char.ofNat (22 + n)

/-- The least value that a further digit follows, at a place counted in steps of 36. -/
def threshold (bias place : Nat) : Nat := max 1 (min 26 (place - bias))

theorem threshold_pos (bias place : Nat) : 0 < threshold bias place := by
  unfold threshold; omega

/-- A distance in digits, the least significant first. -/
def digits (bias place distance : Nat) : List Char :=
  let least := threshold bias place
  if distance < least then [digit distance]
  else
    digit (least + (distance - least) % (36 - least)) ::
      digits bias (place + 36) ((distance - least) / (36 - least))
termination_by distance
decreasing_by
  have := threshold_pos bias place
  have := Nat.div_le_self (distance - threshold bias place) (36 - threshold bias place)
  omega

/-- A scaled distance divided by 35 until it is at most 455, and the places that this takes. -/
def scale (place distance : Nat) : Nat × Nat :=
  if 455 < distance then scale (place + 36) (distance / 35) else (place, distance)
termination_by distance
decreasing_by omega

/-- The bias behind a distance, with the number of characters that are placed then. -/
def biasAfter (isFirst : Bool) (placed distance : Nat) : Nat :=
  let half := if isFirst then distance / 700 else distance / 2
  let (place, rest) := scale 0 (half + half / placed)
  place + 36 * rest / (rest + 38)

/-- How far the characters of a text are placed: their number, the distance from the one before, the
bias and the digits so far. -/
structure Progress where
  placed : Nat
  distance : Nat
  bias : Nat
  written : List Char

/-- One character of the text, while those of a code point are placed. Those before it are passed
over. -/
def visit (code inAscii : Nat) (p : Progress) (c : Char) : Progress :=
  if c.toNat < code then { p with distance := p.distance + 1 }
  else if c.toNat = code then
    { placed := p.placed + 1
      distance := 0
      bias := biasAfter (p.placed = inAscii) (p.placed + 1) p.distance
      written := p.written ++ digits p.bias 36 p.distance }
  else p

/-- The characters with the code points of an ascending list, placed; `next` is the least code point
that is not yet counted. -/
def place (text : List Char) (inAscii : Nat) : Nat → List Nat → Progress → Progress
  | _, [], p => p
  | next, code :: codes, p =>
    let start := { p with distance := p.distance + (code - next) * (p.placed + 1) }
    let q := text.foldl (visit code inAscii) start
    place text inAscii (code + 1) codes { q with distance := q.distance + 1 }

/-- Whether a character is in ASCII. -/
def isAscii (c : Char) : Bool := c.toNat < 128

/-- A text in the characters of ASCII. -/
def encode (text : List Char) : List Char :=
  let plain := text.filter isAscii
  let codes := ((text.filter fun c => !isAscii c).map Char.toNat).mergeSort.eraseDups
  let placed := place text plain.length 128 codes ⟨plain.length, 0, 72, []⟩
  plain ++ (if plain.isEmpty then [] else ['-']) ++ placed.written

end EndpointAtlas.Text.Punycode
