import EndpointAtlas.Numeric.Binary64

/-!
# Arithmetic on binary64 numbers

Sums and products are the numbers closest to the exact results.
-/

namespace EndpointAtlas.Binary64

/-- The number closest to `m * 2 ^ q`. -/
def ofScaled (negative : Bool) (m : Nat) (q : Int) : Binary64 :=
  match q with
  | .ofNat e => nearest negative (m * Nat.pow 2 e) 1
  | .negSucc e => nearest negative m (Nat.pow 2 (e + 1))

/-- The number with the other sign. -/
def negate : Binary64 → Binary64
  | .nan => .nan
  | .infinity negative => .infinity !negative
  | .finite negative m q => .finite (!negative) m q

/-- A significand with its sign, in units of a smaller power of two. -/
def signedAt (q₀ : Int) (negative : Bool) (m : Nat) (q : Int) : Int :=
  let n : Int := m * Nat.pow 2 (q - q₀).toNat
  if negative then -n else n

/-- The sum of two numbers. -/
def add : Binary64 → Binary64 → Binary64
  | .nan, _ => .nan
  | _, .nan => .nan
  | .infinity a, .infinity b => if a = b then .infinity a else .nan
  | .infinity a, _ => .infinity a
  | _, .infinity b => .infinity b
  | .finite a m p, .finite b n q =>
    let least := min p q
    let sum := signedAt least a m p + signedAt least b n q
    if sum = 0 then zero (a && b) else ofScaled (sum < 0) sum.natAbs least

/-- The product of two numbers. -/
def mul : Binary64 → Binary64 → Binary64
  | .nan, _ => .nan
  | _, .nan => .nan
  | .infinity a, .infinity b => .infinity (a != b)
  | .infinity a, .finite b n _ => if n = 0 then .nan else .infinity (a != b)
  | .finite a m _, .infinity b => if m = 0 then .nan else .infinity (a != b)
  | .finite a m p, .finite b n q => ofScaled (a != b) (m * n) (p + q)

end EndpointAtlas.Binary64
