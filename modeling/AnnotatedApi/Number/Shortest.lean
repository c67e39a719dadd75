import AnnotatedApi.Number.Binary64

/-! # Shortest decimal digits

The shortest decimal number that rounds to a given binary64 number, and the nearest to it among
those of that length. The search tries one digit, two digits and so on: at each length only the two
decimal numbers next to the value can be nearest to it, and seventeen digits always suffice. -/

namespace AnnotatedApi

/-- A decimal number `digits · 10^exponent`. -/
structure DecimalDigits where
  digits : Nat
  exponent : Int
  deriving DecidableEq, Repr

namespace Binary64

/-- The numbers that round to a positive number `x`, each times four and in units of the spacing of
`x`: from `lower` to `upper`, both included when `closed`. -/
structure RoundingInterval where
  lower : Nat
  value : Nat
  upper : Nat
  unit : Int
  closed : Bool

/-- The rounding interval of a positive number. Below a power of two the spacing is half as wide,
except at the least normal number. -/
def roundingInterval (x : Binary64) : RoundingInterval :=
  let m := x.significand
  let narrow := m = blockSize ∧ 2 * blockSize ≤ x.code
  { lower := 4 * m - (if narrow then 1 else 2)
    value := 4 * m
    upper := 4 * m + 2
    unit := x.exponent - 2
    closed := m % 2 = 0 }

/-- Whether `d · 10^k` lies in the interval. -/
def RoundingInterval.contains (i : RoundingInterval) (d : Nat) (k : Int) : Bool :=
  let r := Ratio.scale (Ratio.scale ⟨d, 1⟩ 10 k) 2 (-i.unit)
  if i.closed then i.lower * r.den ≤ r.num && r.num ≤ i.upper * r.den
  else i.lower * r.den < r.num && r.num < i.upper * r.den

/-- The greatest `p` with `10^p ≤ num / den`, searched upwards from `p` for at most `fuel`
steps. -/
def decimalExponentFrom (r : Ratio) (p : Int) : Nat → Int
  | 0 => p
  | fuel + 1 =>
      let next := Ratio.scale r 10 (-(p + 1))
      if next.den ≤ next.num then decimalExponentFrom r (p + 1) fuel else p

/-- The decimal exponent of a positive fraction. The start is a lower estimate from the binary
exponent. -/
def decimalExponent (r : Ratio) : Int :=
  let e := binaryExponent r
  decimalExponentFrom r ((e * 30103) / 100000 - 2) 8

/-- Try lengths from `n` digits on, `fuel` of them. -/
def shortestFrom (i : RoundingInterval) (r : Ratio) (p : Int) (n : Nat) : Nat → DecimalDigits
  | 0 => ⟨0, 0⟩
  | fuel + 1 =>
      let k := p - n + 1
      let scaled := Ratio.scale r 10 (-k)
      let below := scaled.num / scaled.den
      let above := below + 1
      let belowFits := i.contains below k
      let aboveFits := i.contains above k
      let twice := 2 * (scaled.num % scaled.den)
      if belowFits && aboveFits then
        if twice < scaled.den then ⟨below, k⟩
        else if scaled.den < twice then ⟨above, k⟩
        else if below % 2 = 0 then ⟨below, k⟩ else ⟨above, k⟩
      else if belowFits then ⟨below, k⟩
      else if aboveFits then ⟨above, k⟩
      else shortestFrom i r p (n + 1) fuel

/-- The shortest decimal number that rounds to the magnitude of `x`. -/
def shortest (x : Binary64) : DecimalDigits :=
  if x.isZero then ⟨0, 0⟩
  else
    let r := x.toRatio
    shortestFrom x.roundingInterval r (decimalExponent r) 1 17

end Binary64

/-- Drop trailing zeros of the digits, for at most `fuel` steps. -/
def DecimalDigits.trimZerosFrom (d : DecimalDigits) : Nat → DecimalDigits
  | 0 => d
  | fuel + 1 =>
      if d.digits ≠ 0 ∧ d.digits % 10 = 0 then
        DecimalDigits.trimZerosFrom ⟨d.digits / 10, d.exponent + 1⟩ fuel
      else d

/-- The same number without trailing zeros in its digits. -/
def DecimalDigits.trimZeros (d : DecimalDigits) : DecimalDigits :=
  d.trimZerosFrom 20

end AnnotatedApi
