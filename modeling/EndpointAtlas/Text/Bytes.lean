/-!
# Texts as bytes

UTF-8 in both directions. `decode` accepts exactly the well-formed sequences: no overlong form, no
surrogate, nothing above the last code point.
-/

namespace EndpointAtlas.Text

/-- The bytes of a character in UTF-8. -/
def encodeChar (c : Char) : List UInt8 :=
  let n := c.toNat
  let tail (unit : Nat) : UInt8 := UInt8.ofNat (128 + n / unit % 64)
  if n < 0x80 then [UInt8.ofNat n]
  else if n < 0x800 then [UInt8.ofNat (192 + n / 64), tail 1]
  else if n < 0x10000 then [UInt8.ofNat (224 + n / 4096), tail 64, tail 1]
  else [UInt8.ofNat (240 + n / 262144), tail 4096, tail 64, tail 1]

/-- The bytes of a text in UTF-8. -/
def encode (cs : List Char) : List UInt8 := cs.flatMap encodeChar

/-- The payload of a continuation byte. -/
def continuation? (b : UInt8) : Option Nat :=
  if 128 ≤ b.toNat ∧ b.toNat < 192 then some (b.toNat - 128) else none

/-- A scalar value that needs at least the given magnitude. -/
def scalarFrom? (least n : Nat) : Option Char :=
  if least ≤ n ∧ n.isValidChar then some (Char.ofNat n) else none

/-- The characters of a byte string, if it is UTF-8. -/
def decode : List UInt8 → Option (List Char)
  | [] => some []
  | a :: rest =>
    if a.toNat < 128 then (Char.ofNat a.toNat :: ·) <$> decode rest
    else if 192 ≤ a.toNat ∧ a.toNat < 224 then
      match rest with
      | b :: rest => do
        let b ← continuation? b
        let c ← scalarFrom? 0x80 ((a.toNat - 192) * 64 + b)
        (c :: ·) <$> decode rest
      | _ => none
    else if 224 ≤ a.toNat ∧ a.toNat < 240 then
      match rest with
      | b :: c :: rest => do
        let b ← continuation? b
        let c ← continuation? c
        let x ← scalarFrom? 0x800 (((a.toNat - 224) * 64 + b) * 64 + c)
        (x :: ·) <$> decode rest
      | _ => none
    else if 240 ≤ a.toNat ∧ a.toNat < 248 then
      match rest with
      | b :: c :: d :: rest => do
        let b ← continuation? b
        let c ← continuation? c
        let d ← continuation? d
        let x ← scalarFrom? 0x10000 ((((a.toNat - 240) * 64 + b) * 64 + c) * 64 + d)
        (x :: ·) <$> decode rest
      | _ => none
    else none
termination_by structural bytes => bytes

end EndpointAtlas.Text
