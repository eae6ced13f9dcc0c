/-!
# Binary64 numbers

A number with 53 binary digits is held by its exact value: a sign, a significand and a power of
two. Every operation here is natural number arithmetic.

1. `Binary64.nearest` rounds a quotient of natural numbers to the closest number, a tie going to
   the even significand.
2. `Binary64.ofDecimal` reads `digits * 10 ^ exponent`.
3. `Binary64.compareInt` and `Binary64.same` compare exact values.
-/

namespace EndpointAtlas

/-- A binary64 number. In `finite s m q` the value is `m * 2 ^ q`, negated when `s` holds; the
constructors of this module keep `m < 2 ^ 53`, and `2 ^ 52 ≤ m` whenever `q` exceeds `-1074`. -/
inductive Binary64 where
  | nan
  | infinity (negative : Bool)
  | finite (negative : Bool) (significand : Nat) (exponent : Int)
  deriving DecidableEq, Repr, Inhabited

namespace Binary64

/-- The least exponent of a finite number. -/
def minExponent : Int := -1074

/-- The greatest exponent of a finite number. -/
def maxExponent : Int := 971

/-- Zero with a sign. -/
def zero (negative : Bool) : Binary64 := .finite negative 0 minExponent

/-- The natural number closest to `num / den`; a tie goes to the even one. -/
def roundDiv (num den : Nat) : Nat :=
  let quotient := num / den
  let rest := num % den
  if 2 * rest < den then quotient
  else if den < 2 * rest then quotient + 1
  else quotient + quotient % 2

/-- `num / den` divided by `2 ^ exponent`, as numerator and denominator. -/
def scaled (num den : Nat) (exponent : Int) : Nat × Nat :=
  match exponent with
  | .ofNat e => (num, den * Nat.pow 2 e)
  | .negSucc e => (num * Nat.pow 2 (e + 1), den)

/-- The exponent at which `num / den` has 53 binary digits before the point, or the least exponent
when it is too small for that. -/
def gridExponent (num den : Nat) : Int :=
  let low : Int := (num.log2 : Int) - den.log2 - 53
  let (n, d) := scaled num den low
  max minExponent (if n / d < Nat.pow 2 53 then low else low + 1)

/-- The number closest to `num / den`, a tie going to the even significand. Values from the middle
between the greatest finite number and the next power of two on become infinite. -/
def nearest (negative : Bool) (num den : Nat) : Binary64 :=
  if num = 0 then zero negative
  else
    let e := gridExponent num den
    let (n, d) := scaled num den e
    let m := roundDiv n d
    let (m, e) := if m = Nat.pow 2 53 then (Nat.pow 2 52, e + 1) else (m, e)
    if maxExponent < e then .infinity negative else .finite negative m e

/-- The number closest to an integer. -/
def ofInt (n : Int) : Binary64 := nearest (n < 0) n.natAbs 1

/-- The number closest to `digits * 10 ^ exponent`. Exponents far outside the range are settled
without computing the power. -/
def ofDecimal (negative : Bool) (digits : Nat) (exponent : Int) : Binary64 :=
  let width : Int := (Nat.toDigits 10 digits).length
  if digits = 0 then zero negative
  else if width + exponent < -330 then zero negative
  else if 320 < width + exponent then .infinity negative
  else match exponent with
    | .ofNat e => nearest negative (digits * Nat.pow 10 e) 1
    | .negSucc e => nearest negative digits (Nat.pow 10 (e + 1))

/-- The integer equal to a finite number, if there is one. -/
def toInt? : Binary64 → Option Int
  | .finite negative m (.ofNat e) =>
      let n := m * Nat.pow 2 e
      some (if negative then -(n : Int) else n)
  | .finite negative m (.negSucc e) =>
      let unit := Nat.pow 2 (e + 1)
      if m % unit = 0 then
        some (if negative then -((m / unit : Nat) : Int) else (m / unit : Nat))
      else none
  | _ => none

/-- Whether the number is a zero of either sign. -/
def isZero : Binary64 → Bool
  | .finite _ m _ => m = 0
  | _ => false

/-- Whether the number is neither infinite nor NaN. -/
def isFinite : Binary64 → Bool
  | .finite .. => true
  | _ => false

/-- Equality of keys: both zeros are one key, and NaN is equal to itself. -/
def same : Binary64 → Binary64 → Bool
  | x, y => (x.isZero && y.isZero) || x = y

end Binary64

end EndpointAtlas
