/-!
# Base 64

Groups of six bits written as letters. Reading is lenient: characters outside the alphabet are
skipped and everything behind a complete padding is ignored.
-/

namespace EndpointAtlas.Text.Base64

/-- The sixty-four letters in order. -/
def alphabet : List Char :=
  "ABCDEFGHIJKLMNOPQRSTUVWXYZabcdefghijklmnopqrstuvwxyz0123456789+/".toList

/-- The letter of a six-bit group. -/
def letter (n : Nat) : Char := alphabet.getD n 'A'

/-- The letters of a byte string, padded to a multiple of four. -/
def encode : List UInt8 → List Char
  | [] => []
  | [a] =>
    let n := a.toNat * 16
    [letter (n / 64), letter (n % 64), '=', '=']
  | [a, b] =>
    let n := (a.toNat * 256 + b.toNat) * 4
    [letter (n / 4096), letter (n / 64 % 64), letter (n % 64), '=']
  | a :: b :: c :: rest =>
    let n := (a.toNat * 256 + b.toNat) * 256 + c.toNat
    letter (n / 262144) :: letter (n / 4096 % 64) :: letter (n / 64 % 64) :: letter (n % 64)
      :: encode rest

/-- Where reading stands inside a group of four letters: how many were read, the bits that are not
written yet and the padding met since the last letter. -/
structure Position where
  letters : Nat
  pending : Nat
  padding : Nat

/-- The bytes of the letters behind a position; `none` when a group is left incomplete. -/
def decodeFrom : Position → List Char → Option (List UInt8)
  | p, [] => if p.letters = 0 then some [] else none
  | p, c :: rest =>
    if c = '=' then
      if p.letters < 2 then decodeFrom p rest
      else if 4 ≤ p.letters + p.padding + 1 then some []
      else decodeFrom { p with padding := p.padding + 1 } rest
    else match alphabet.idxOf? c with
      | none => decodeFrom p rest
      | some n =>
        match p.letters with
        | 0 => decodeFrom ⟨1, n, 0⟩ rest
        | 1 => (UInt8.ofNat (p.pending * 4 + n / 16) :: ·) <$> decodeFrom ⟨2, n % 16, 0⟩ rest
        | 2 => (UInt8.ofNat (p.pending * 16 + n / 4) :: ·) <$> decodeFrom ⟨3, n % 4, 0⟩ rest
        | _ => (UInt8.ofNat (p.pending * 64 + n) :: ·) <$> decodeFrom ⟨0, 0, 0⟩ rest

/-- The bytes of a text of letters. -/
def decode (cs : List Char) : Option (List UInt8) := decodeFrom ⟨0, 0, 0⟩ cs

end EndpointAtlas.Text.Base64
