import AnnotatedApi.Number.Basic
import AnnotatedApi.Text.Letters
import AnnotatedApi.Text.Blank

/-! # Plain scalars

A scalar without quotes is null, a boolean, a number or a text, by the way it is written. Integers
may be hexadecimal, octal or binary; digits after a leading zero make a text, and so do words that
only resemble `true` or `null`. -/

namespace AnnotatedApi.Plain

/-! ## Words -/

/-- Whether the words for null include this one. -/
def isNullWord (written : String) : Bool :=
  ["null", "Null", "NULL", "~"].contains written

/-- The boolean that a word spells. -/
def bool? (written : String) : Option Bool :=
  if ["true", "True", "TRUE"].contains written then some true
  else if ["false", "False", "FALSE"].contains written then some false
  else none

/-! ## Integers -/

/-- The value of a digit of any base up to sixteen. -/
def digit? (c : Char) : Option Nat :=
  if '0' ≤ c ∧ c ≤ '9' then some (c.toNat - '0'.toNat)
  else if 'a' ≤ c ∧ c ≤ 'f' then some (c.toNat - 'a'.toNat + 10)
  else if 'A' ≤ c ∧ c ≤ 'F' then some (c.toNat - 'A'.toNat + 10)
  else none

/-- The value of digits of a base, continued from the value of those before. -/
def valueFrom (base value : Nat) : List Char → Option Nat
  | [] => some value
  | c :: rest =>
      match digit? c with
      | some d => if d < base then valueFrom base (value * base + d) rest else none
      | none => none

/-- The value of at least one digit of a base. -/
def natural? (base : Nat) (digits : List Char) : Option Nat :=
  if digits.isEmpty then none else valueFrom base 0 digits

/-- Whether a sign is followed by more than one digit, the first of them a zero. -/
def hasLeadingZero (chars : List Char) : Bool :=
  let digits :=
    match chars with
    | '-' :: rest => rest
    | '+' :: rest => rest
    | _ => chars
  match digits with
  | '0' :: c :: rest => (c :: rest).all Text.isDigit
  | _ => false

/-- The magnitude of a number after its sign: decimal, or of another base after its mark. -/
def magnitude? (chars : List Char) : Option Nat :=
  match chars with
  | '0' :: 'x' :: digits => natural? 16 digits
  | '0' :: 'o' :: digits => natural? 8 digits
  | '0' :: 'b' :: digits => natural? 2 digits
  | _ => natural? 10 chars

/-- The integer that characters spell, of any size. -/
def integer? (chars : List Char) : Option Int :=
  if hasLeadingZero chars then none
  else
    match chars with
    | '-' :: rest => (magnitude? rest).map fun n => -(n : Int)
    | '+' :: rest => (magnitude? rest).map fun n => (n : Int)
    | _ => (magnitude? chars).map fun n => (n : Int)

/-! ## Numbers with a fraction or an exponent -/

/-- The exponent at the end of a number: none, or a mark with a signed integer. -/
def exponent? (chars : List Char) : Option Int :=
  match chars with
  | [] => some 0
  | mark :: rest =>
      if mark = 'e' ∨ mark = 'E' then
        match rest with
        | '-' :: digits => (natural? 10 digits).map fun n => -(n : Int)
        | '+' :: digits => (natural? 10 digits).map fun n => (n : Int)
        | digits => (natural? 10 digits).map fun n => (n : Int)
      else none

/-- The digits and the decimal exponent of an unsigned number. -/
def decimal? (chars : List Char) : Option (Nat × Int) :=
  let whole := chars.takeWhile Text.isDigit
  let rest := chars.dropWhile Text.isDigit
  let (fraction, rest) :=
    match rest with
    | '.' :: more => (more.takeWhile Text.isDigit, more.dropWhile Text.isDigit)
    | _ => ([], rest)
  match natural? 10 (whole ++ fraction), exponent? rest with
  | some digits, some e => some (digits, e - (fraction.length : Int))
  | _, _ => none

/-- The finite binary64 number that characters spell. -/
def real? (chars : List Char) : Option Binary64 :=
  let (negative, chars) :=
    match chars with
    | '-' :: rest => (true, rest)
    | '+' :: rest => (false, rest)
    | _ => (false, chars)
  (decimal? chars).bind fun (digits, e) => Binary64.ofDecimal? negative digits e

/-- Whether a word spells an infinity or a number that is none. -/
def isNonFinite (written : String) : Bool :=
  [".inf", ".Inf", ".INF", "+.inf", "+.Inf", "+.INF", "-.inf", "-.Inf", "-.INF", ".nan", ".NaN",
   ".NAN"].contains written

/-- The integers that fit 128 bits, signed or unsigned. -/
def isWide (value : Int) : Bool :=
  -0x80000000000000000000000000000000 ≤ value && value < 0x100000000000000000000000000000000

/-- What an unquoted scalar is. -/
inductive Kind where
  | null
  | bool (value : Bool)
  | number (value : Number)
  /-- An integer beyond 64 bits. -/
  | oversized
  /-- An infinity, or a number that is none. -/
  | nonFinite
  | text

/-- The integer that a scalar spells, if there is one. -/
def integerKind? (written : String) : Option Kind :=
  match integer? written.toList with
  | some n =>
      if Number.inRange n then some (.number (.int n))
      else if isWide n then some .oversized
      else none
  | none => none

/-- The number with a fraction or an exponent that a scalar spells, if there is one. -/
def realKind? (written : String) : Option Kind :=
  if isNonFinite written then some .nonFinite
  else (real? written.toList).map fun x => .number (.real x)

/-- What a scalar is by the way it is written. -/
def kind (written : String) : Kind :=
  if written == "" || isNullWord written then .null
  else
    match bool? written with
    | some value => .bool value
    | none =>
        match integerKind? written with
        | some kind => kind
        | none =>
            if hasLeadingZero written.toList then .text
            else (realKind? written).getD .text

end AnnotatedApi.Plain
