/-! # Binary64 numbers

The finite numbers of the 64-bit binary format as a sign and a code. The codes of the non-negative
numbers are in order with their values: a code below `2^52` is a multiple of the least positive
number, every further block of `2^52` codes has twice the spacing of the one before, and the first
code that stands for no finite number is `2047 · 2^52`. All arithmetic is exact and rounds once, to
the nearest number and to the even code when two are equally near. -/

namespace AnnotatedApi

/-- A finite number of the 64-bit binary format. -/
structure Binary64 where
  negative : Bool
  code : Nat
  deriving DecidableEq, Repr

namespace Binary64

/-- The number of codes in a block, `2^52`. -/
def blockSize : Nat := 0x10000000000000

/-- The first code beyond the finite numbers. -/
def limit : Nat := 2047 * blockSize

/-- The whole factor of the value `significand · 2^exponent`. -/
def significand (x : Binary64) : Nat :=
  if x.code < blockSize then x.code else blockSize + x.code % blockSize

/-- The exponent of the value `significand · 2^exponent`. -/
def exponent (x : Binary64) : Int :=
  if x.code < blockSize then -1074 else (x.code / blockSize : Nat) - 1075

/-- Whether the number is zero, of either sign. -/
def isZero (x : Binary64) : Bool := x.code == 0

/-! ## Rounding -/

/-- A fraction of natural numbers; the denominator is meant to be positive. -/
structure Ratio where
  num : Nat
  den : Nat
  deriving Repr

/-- Multiply a fraction by a power of a base with a positive or negative exponent. -/
def Ratio.scale (r : Ratio) (base : Nat) (e : Int) : Ratio :=
  if 0 ≤ e then ⟨r.num * Nat.pow base e.toNat, r.den⟩ else ⟨r.num, r.den * Nat.pow base (-e).toNat⟩

/-- The magnitude of a number as a fraction. -/
def toRatio (x : Binary64) : Ratio :=
  Ratio.scale ⟨x.significand, 1⟩ 2 x.exponent

/-- The whole number nearest to `num / den`, the even one of two. -/
def roundHalfEven (num den : Nat) : Nat :=
  let q := num / den
  let twice := 2 * (num % den)
  if twice < den then q else if den < twice then q + 1 else if q % 2 = 0 then q else q + 1

/-- The greatest `e` with `2^e ≤ num / den`, for positive `num` and `den`. -/
def binaryExponent (r : Ratio) : Int :=
  let e : Int := (r.num.log2 : Int) - r.den.log2
  let scaled := Ratio.scale r 2 (-e)
  if scaled.den ≤ scaled.num then e else e - 1

/-- The code nearest to a fraction; it is at least `limit` when the fraction is too large. -/
def codeOfRatio (r : Ratio) : Nat :=
  if r.num = 0 then 0
  else
    let e := max (binaryExponent r - 52) (-1074)
    let scaled := Ratio.scale r 2 (-e)
    (e + 1074).toNat * blockSize + roundHalfEven scaled.num scaled.den

/-- The number nearest to a fraction, none when it is too large. -/
def ofRatio? (negative : Bool) (r : Ratio) : Option Binary64 :=
  let code := codeOfRatio r
  if code < limit then some ⟨negative, code⟩ else none

/-- The number nearest to `digits · 10^e`, none when it is too large. Exponents so far out that the
result is plain are settled without the power. -/
def ofDecimal? (negative : Bool) (digits : Nat) (e : Int) : Option Binary64 :=
  if digits = 0 then some ⟨negative, 0⟩
  else
    let size : Int := (digits.log2 : Int) / 3 + 1
    if 400 < e then none
    else if e < -400 - size then some ⟨negative, 0⟩
    else ofRatio? negative (Ratio.scale ⟨digits, 1⟩ 10 e)

/-! ## Products and quotients -/

/-- The rounded product, none when it is too large. -/
def mul? (x y : Binary64) : Option Binary64 :=
  let a := x.toRatio
  let b := y.toRatio
  ofRatio? (x.negative != y.negative) ⟨a.num * b.num, a.den * b.den⟩

/-- The rounded quotient by a number other than zero, none when it is too large. -/
def div? (x y : Binary64) : Option Binary64 :=
  let a := x.toRatio
  let b := y.toRatio
  ofRatio? (x.negative != y.negative) ⟨a.num * b.den, a.den * b.num⟩

end Binary64

end AnnotatedApi
