import AnnotatedApi.Number.Shortest

/-! # Numbers of documents

A number of a document is an integer that fits 64 bits, signed or unsigned, or a finite binary64
number. Integers are written in decimal. A binary64 number is written with its shortest digits,
positionally while its decimal exponent is between -5 and 15, and always with a fraction there;
otherwise in scientific notation, whose positive exponents carry a plus sign in JSON but not in
YAML. -/

namespace AnnotatedApi

/-- A number: an integer or a binary64 number. -/
inductive Number where
  | int (value : Int)
  | real (value : Binary64)
  deriving DecidableEq, Repr

namespace Number

/-- The integers that documents can hold. -/
def inRange (value : Int) : Bool :=
  -0x8000000000000000 ≤ value && value < 0x10000000000000000

/-- The value of a number that is a natural number. -/
def toNat? : Number → Option Nat
  | .int value => if 0 ≤ value then some value.toNat else none
  | .real _ => none

/-! ## Text -/

/-- The decimal digits of a natural number. -/
def natDigits (n : Nat) : List Char :=
  Nat.toDigits 10 n

/-- The decimal text of an integer. -/
def intText (value : Int) : List Char :=
  if value < 0 then '-' :: natDigits value.natAbs else natDigits value.natAbs

/-- The layout of scientific notation: what stands before the digits of a positive exponent. -/
structure RealFormat where
  positiveExponent : List Char

/-- The layout of JSON texts. -/
def jsonFormat : RealFormat := ⟨['e', '+']⟩

/-- The layout of YAML texts. -/
def yamlFormat : RealFormat := ⟨['e']⟩

/-- Lay out the magnitude `digits · 10^exponent`. -/
def magnitudeText (format : RealFormat) (d : DecimalDigits) : List Char :=
  let digits := natDigits d.digits
  let length : Int := digits.length
  let point : Int := length + d.exponent
  if d.digits = 0 then ['0', '.', '0']
  else if 0 ≤ d.exponent ∧ point ≤ 16 then
    digits ++ List.replicate d.exponent.toNat '0' ++ ['.', '0']
  else if 0 < point ∧ point ≤ 16 then
    digits.take point.toNat ++ ['.'] ++ digits.drop point.toNat
  else if -5 < point ∧ point ≤ 0 then
    ['0', '.'] ++ List.replicate (-point).toNat '0' ++ digits
  else
    let fraction := digits.drop 1
    let e := point - 1
    digits.take 1 ++ (if fraction.isEmpty then [] else '.' :: fraction) ++
      (if e < 0 then ['e'] ++ intText e else format.positiveExponent ++ intText e)

/-- The text of a binary64 number. -/
def realText (format : RealFormat) (x : Binary64) : List Char :=
  (if x.negative then ['-'] else []) ++ magnitudeText format x.shortest.trimZeros

/-- The text of a number. -/
def text (format : RealFormat) : Number → List Char
  | .int value => intText value
  | .real value => realText format value

/-- The text of a number in JSON. -/
def jsonText (n : Number) : String := String.ofList (n.text jsonFormat)

end Number

end AnnotatedApi
