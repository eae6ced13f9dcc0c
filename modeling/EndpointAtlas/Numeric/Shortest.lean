import EndpointAtlas.Numeric.Binary64

/-!
# The shortest decimal of a binary64 number

`Binary64.shortest m q` is the decimal with the fewest digits among those that round to
`m * 2 ^ q`, and of those with that many digits the one nearest to it. `Binary64.text` writes it.
-/

namespace EndpointAtlas.Binary64

/-- A positive decimal `digits * 10 ^ exponent`. -/
structure Decimal where
  digits : Nat
  exponent : Int
  deriving DecidableEq, Repr

/-- The numbers that round to `m * 2 ^ q`, in units of `1 / den`: the value itself, the two ends
and whether the ends belong to it. -/
structure RoundingInterval where
  value : Nat
  low : Nat
  high : Nat
  den : Nat
  closed : Bool

/-- The interval around `m * 2 ^ q`. Below a power of two the neighbour is half as far away. -/
def roundingInterval (m : Nat) (q : Int) : RoundingInterval :=
  let below := if m = Nat.pow 2 52 ∧ minExponent < q then 1 else 2
  let (scale, den) := match q with
    | .ofNat e => (Nat.pow 2 e, 4)
    | .negSucc e => (1, 4 * Nat.pow 2 (e + 1))
  ⟨4 * m * scale, (4 * m - below) * scale, (4 * m + 2) * scale, den, m % 2 = 0⟩

/-- Whether `num / den` lies in the interval. -/
def RoundingInterval.contains (i : RoundingInterval) (num den : Nat) : Bool :=
  let low := i.low * den
  let high := i.high * den
  let point := num * i.den
  if i.closed then low ≤ point && point ≤ high else low < point && point < high

/-- The exponent of the leading decimal digit of `num / den`. -/
def leadingExponent (num den : Nat) : Int :=
  if den ≤ num then ((Nat.toDigits 10 (num / den)).length : Int) - 1
  else -((Nat.toDigits 10 ((den + num - 1) / num - 1)).length : Int)

/-- The decimal on the grid of multiples of `10 ^ grid` that lies in the interval and is nearest to
its value, the even one of two that are equally near. -/
def RoundingInterval.onGrid? (i : RoundingInterval) (grid : Int) : Option Decimal :=
  let (up, down) := match grid with
    | .ofNat g => (Nat.pow 10 g, 1)
    | .negSucc g => (1, Nat.pow 10 (g + 1))
  let num := i.value * down
  let den := i.den * up
  let floor := num / den
  let rest := num % den
  let lower := i.contains (floor * up) down
  let upper := i.contains ((floor + 1) * up) down
  let nearer := if 2 * rest < den then floor else if den < 2 * rest then floor + 1
    else floor + floor % 2
  match lower, upper with
  | true, true => some ⟨nearer, grid⟩
  | true, false => some ⟨floor, grid⟩
  | false, true => some ⟨floor + 1, grid⟩
  | false, false => none

/-- The shortest decimal that rounds to `m * 2 ^ q`, for `0 < m`. Seventeen digits always do. -/
def shortest (m : Nat) (q : Int) : Decimal :=
  let i := roundingInterval m q
  let top := leadingExponent i.value i.den
  ((List.range 17).findSome? fun (n : Nat) => i.onGrid? (top - (n : Int))).getD ⟨i.value / i.den, 0⟩

/-- Zeros. -/
def zeros (n : Nat) : String := String.ofList (List.replicate n '0')

/-- Where positional notation ends: numbers below this power of ten are written with a point. -/
def positionalBelow : Int := 16

/-- Where positional notation begins: numbers from this power of ten on are written with a point. -/
def positionalFrom : Int := -4

/-- A decimal written with a point if its leading digit is from `10 ^ -4` to `10 ^ 15`, and with an
exponent of at least two digits and a sign otherwise. -/
def Decimal.text (d : Decimal) : String :=
  let digits := (Nat.toDigits 10 d.digits).reverse.dropWhile (· = '0') |>.reverse
  let point : Int := (Nat.toDigits 10 d.digits).length + d.exponent
  let width : Int := digits.length
  if positionalFrom < point ∧ point ≤ positionalBelow then
    if point ≤ 0 then "0." ++ zeros (-point).toNat ++ String.ofList digits
    else if width ≤ point then String.ofList digits ++ zeros (point - width).toNat ++ ".0"
    else String.ofList (digits.take point.toNat) ++ "." ++ String.ofList (digits.drop point.toNat)
  else
    let fraction := if digits.length ≤ 1 then "" else "." ++ String.ofList (digits.drop 1)
    let exponent := point - 1
    let size := Nat.toDigits 10 exponent.natAbs
    String.ofList (digits.take 1) ++ fraction ++ "e" ++ (if exponent < 0 then "-" else "+") ++
      (if size.length < 2 then "0" else "") ++ String.ofList size

/-- The shortest text that reads back as the number. -/
def text : Binary64 → String
  | .nan => "nan"
  | .infinity negative => if negative then "-inf" else "inf"
  | .finite negative m q =>
      (if negative then "-" else "") ++ if m = 0 then "0.0" else (shortest m q).text

end EndpointAtlas.Binary64
