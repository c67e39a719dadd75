import AnnotatedApi.Json.Written
import AnnotatedApi.Text.Letters

/-! # Reading JSON texts

A strict reader of JSON: one value with white space around it and no control characters inside
quotes. A reader consumes characters from the front and returns what it read together with the rest.
Where only the value counts, nesting is limited to 127 levels.

Numbers with a fraction or an exponent are collected as a 64-bit count of digits and a decimal
exponent, and become binary64 by one product or quotient with a power of ten; so the last bit can
differ from the nearest number. Integers beyond 64 bits are read in the same way. -/

namespace AnnotatedApi.Json

/-- Whether the character is white space of JSON. -/
def isSpace (c : Char) : Bool :=
  c == ' ' || c == '\n' || c == '\t' || c == '\r'

/-- Drop white space. -/
def skipSpace (chars : List Char) : List Char :=
  chars.dropWhile isSpace

/-! ## Numbers -/

/-- The value of a decimal digit. -/
def digitValue (c : Char) : Nat := c.toNat - '0'.toNat

/-- The greatest 64-bit natural number. -/
def maxCount : Nat := 0xFFFFFFFFFFFFFFFF

/-- A number in the making: the digits that fit 64 bits and the power of ten they are meant with. -/
structure Digits where
  count : Nat
  exponent : Int

/-- Collect digits before the point while they fit, then only count them. -/
def integerDigits (d : Digits) : List Char → Digits × List Char
  | [] => (d, [])
  | c :: rest =>
      if Text.isDigit c then
        let next := d.count * 10 + digitValue c
        if d.exponent = 0 ∧ next ≤ maxCount then integerDigits ⟨next, 0⟩ rest
        else integerDigits ⟨d.count, d.exponent + 1⟩ rest
      else (d, c :: rest)

/-- Collect digits after the point while they fit, then drop them. -/
def fractionDigits (d : Digits) (full : Bool) : List Char → Digits × List Char
  | [] => (d, [])
  | c :: rest =>
      if Text.isDigit c then
        let next := d.count * 10 + digitValue c
        if !full && next ≤ maxCount then fractionDigits ⟨next, d.exponent - 1⟩ false rest
        else fractionDigits d true rest
      else (d, c :: rest)

/-- The value of leading digits, and what follows them. -/
def naturalFrom (value : Nat) : List Char → Nat × List Char
  | [] => (value, [])
  | c :: rest =>
      if Text.isDigit c then naturalFrom (value * 10 + digitValue c) rest else (value, c :: rest)

/-- Whether a list of characters starts with a digit. -/
def startsWithDigit : List Char → Bool
  | c :: _ => Text.isDigit c
  | [] => false

/-- The powers of ten that are at hand: a finite binary64 number for each exponent up to 308. -/
def powerOfTen (e : Nat) : Binary64 :=
  (Binary64.ofDecimal? false 1 e).getD ⟨false, 0⟩

/-- Divide by `10^308` until the remaining exponent is at most 308, for at most `fuel` steps, then
divide by the power that is left. -/
def divideByPowers (x : Binary64) (e : Nat) : Nat → Option Binary64
  | 0 => some ⟨false, 0⟩
  | fuel + 1 =>
      if e ≤ 308 then x.div? (powerOfTen e)
      else if x.isZero then some x
      else (x.div? (powerOfTen 308)).bind fun y => divideByPowers y (e - 308) fuel

/-- The binary64 number of collected digits; none when it is too large. -/
def realOfDigits (negative : Bool) (d : Digits) : Option Binary64 := do
  let x ← Binary64.ofDecimal? false d.count 0
  let y ←
    if 0 ≤ d.exponent then
      if d.exponent ≤ 308 then x.mul? (powerOfTen d.exponent.toNat)
      else if x.isZero then some x else none
    else divideByPowers x d.exponent.natAbs 4
  pure ⟨negative, y.code⟩

/-- A number that was read, none when it is too large, and what follows it. -/
abbrev ReadNumber : Type := Option Number × List Char

/-- Read an optional exponent part after collected digits. -/
def readExponent (negative : Bool) (d : Digits) (chars : List Char) : Option ReadNumber :=
  let real (d : Digits) (rest : List Char) : ReadNumber :=
    ((realOfDigits negative d).map .real, rest)
  match chars with
  | c :: rest =>
      if c = 'e' || c = 'E' then
        let (down, digits) :=
          match rest with
          | '+' :: more => (false, more)
          | '-' :: more => (true, more)
          | _ => (false, rest)
        if startsWithDigit digits then
          let (e, more) := naturalFrom 0 digits
          if 0x7FFFFFFF < e then
            some (if d.count ≠ 0 ∧ !down then none else some (.real ⟨negative, 0⟩), more)
          else some (real ⟨d.count, if down then d.exponent - e else d.exponent + e⟩ more)
        else none
      else some (real d chars)
  | [] => some (real d [])

/-- The number without fraction and exponent: an integer where 64 bits suffice. A negative zero is
a binary64 number. -/
def wholeNumber (negative : Bool) (d : Digits) : Option Number :=
  if d.exponent ≠ 0 then (realOfDigits negative d).map .real
  else if !negative then some (.int d.count)
  else if d.count = 0 ∨ 0x8000000000000000 < d.count then (realOfDigits true d).map .real
  else some (.int (-d.count))

/-- Read the digits before the point; a zero stands alone. -/
def readWhole (chars : List Char) : Option (Digits × List Char) :=
  match chars with
  | '0' :: rest => if startsWithDigit rest then none else some (⟨0, 0⟩, rest)
  | _ => if startsWithDigit chars then some (integerDigits ⟨0, 0⟩ chars) else none

/-- Read a number. -/
def readNumber (chars : List Char) : Option ReadNumber :=
  let (negative, digits) :=
    match chars with
    | '-' :: rest => (true, rest)
    | _ => (false, chars)
  match readWhole digits with
  | none => none
  | some (d, '.' :: rest) =>
      if startsWithDigit rest then
        let (d, after) := fractionDigits d false rest
        readExponent negative d after
      else none
  | some (d, 'e' :: rest) => readExponent negative d ('e' :: rest)
  | some (d, 'E' :: rest) => readExponent negative d ('E' :: rest)
  | some (d, rest) => some (wholeNumber negative d, rest)

/-! ## Texts -/

/-- The value of a hexadecimal digit of either case. -/
def hexValue? (c : Char) : Option Nat :=
  if '0' ≤ c ∧ c ≤ '9' then some (c.toNat - '0'.toNat)
  else if 'a' ≤ c ∧ c ≤ 'f' then some (c.toNat - 'a'.toNat + 10)
  else if 'A' ≤ c ∧ c ≤ 'F' then some (c.toNat - 'A'.toNat + 10)
  else none

/-- Read four hexadecimal digits. -/
def readUnit : List Char → Option (Nat × List Char)
  | a :: b :: c :: d :: rest => do
      let a ← hexValue? a
      let b ← hexValue? b
      let c ← hexValue? c
      let d ← hexValue? d
      pure (((a * 16 + b) * 16 + c) * 16 + d, rest)
  | _ => none

/-- Read the code after `\u`, which may be one of a pair; half of a pair stands for nothing. -/
def readCode (chars : List Char) : Option (Option Char × List Char) := do
  let (unit, rest) ← readUnit chars
  if 0xD800 ≤ unit ∧ unit < 0xDC00 then
    match rest with
    | '\\' :: 'u' :: more =>
        match readUnit more with
        | some (second, more) =>
            if 0xDC00 ≤ second ∧ second < 0xE000 then
              pure (some (Char.ofNat (0x10000 + (unit - 0xD800) * 0x400 + (second - 0xDC00))), more)
            else pure (none, rest)
        | none => none
    | _ => pure (none, rest)
  else if 0xDC00 ≤ unit ∧ unit < 0xE000 then pure (none, rest)
  else pure (some (Char.ofNat unit), rest)

/-- Read what follows a backslash. -/
def readEscape : List Char → Option (Option Char × List Char)
  | '"' :: rest => some (some '"', rest)
  | '\\' :: rest => some (some '\\', rest)
  | '/' :: rest => some (some '/', rest)
  | 'b' :: rest => some (some (Char.ofNat 8), rest)
  | 'f' :: rest => some (some (Char.ofNat 12), rest)
  | 'n' :: rest => some (some '\n', rest)
  | 'r' :: rest => some (some '\r', rest)
  | 't' :: rest => some (some '\t', rest)
  | 'u' :: rest => readCode rest
  | _ => none

/-- Read the characters up to the closing quote; `done` holds those read so far in reverse, unless
one of them stands for nothing. -/
def readTextFrom (done : Option (List Char)) :
    Nat → List Char → Option (Option String × List Char)
  | 0, _ => none
  | _ + 1, [] => none
  | fuel + 1, c :: rest =>
      if c = '"' then some (done.map fun done => String.ofList done.reverse, rest)
      else if c = '\\' then
        match readEscape rest with
        | none => none
        | some (escaped, more) =>
            readTextFrom (done.bind fun done => escaped.map (· :: done)) fuel more
      else if c.toNat < 32 then none
      else readTextFrom (done.map (c :: ·)) fuel rest

/-- Read the rest of a text after its opening quote. -/
def readText (chars : List Char) : Option (Option String × List Char) :=
  readTextFrom (some []) (chars.length + 1) chars

/-! ## Values -/

/-- Read items up to the closing bracket, with `value` to read one; `done` holds those read so far
in reverse. -/
def readItems (value : List Char → Option (Written × List Char)) (done : List Written) :
    Nat → List Char → Option (List Written × List Char)
  | 0, _ => none
  | fuel + 1, chars =>
      match value chars with
      | none => none
      | some (item, rest) =>
          match skipSpace rest with
          | ',' :: more => readItems value (item :: done) fuel more
          | ']' :: more => some ((item :: done).reverse, more)
          | _ => none

/-- Read members up to the closing brace, with `value` to read the value of one; `done` holds those
read so far in reverse. -/
def readMembers (value : List Char → Option (Written × List Char))
    (done : List (Option String × Written)) :
    Nat → List Char → Option (List (Option String × Written) × List Char)
  | 0, _ => none
  | fuel + 1, chars =>
      match skipSpace chars with
      | '"' :: rest =>
          match readText rest with
          | none => none
          | some (name, rest) =>
              match skipSpace rest with
              | ':' :: rest =>
                  match value rest with
                  | none => none
                  | some (item, rest) =>
                      match skipSpace rest with
                      | ',' :: more => readMembers value ((name, item) :: done) fuel more
                      | '\x7d' :: more => some (((name, item) :: done).reverse, more)
                      | _ => none
              | _ => none
      | _ => none

/-- Read a value in which brackets and braces nest at most `fuel` levels. -/
def readValue : Nat → List Char → Option (Written × List Char)
  | fuel, chars =>
      match skipSpace chars with
      | 'n' :: 'u' :: 'l' :: 'l' :: rest => some (.null, rest)
      | 't' :: 'r' :: 'u' :: 'e' :: rest => some (.bool true, rest)
      | 'f' :: 'a' :: 'l' :: 's' :: 'e' :: rest => some (.bool false, rest)
      | '"' :: rest => (readText rest).map fun (value, rest) => (.text value, rest)
      | '[' :: rest =>
          match fuel with
          | 0 => none
          | fuel + 1 =>
              match skipSpace rest with
              | ']' :: more => some (.array [], more)
              | _ =>
                  (readItems (readValue fuel) [] (rest.length + 1) rest).map
                    fun (items, rest) => (.array items, rest)
      | '\x7b' :: rest =>
          match fuel with
          | 0 => none
          | fuel + 1 =>
              match skipSpace rest with
              | '\x7d' :: more => some (.object [], more)
              | _ =>
                  (readMembers (readValue fuel) [] (rest.length + 1) rest).map
                    fun (members, rest) => (.object members, rest)
      | chars => (readNumber chars).map fun (value, rest) => (.number value, rest)

/-- Read a text that holds one value. -/
def Written.parse? (text : String) : Option Written :=
  let chars := text.toList
  match readValue (chars.length + 1) chars with
  | some (value, rest) => if (skipSpace rest).isEmpty then some value else none
  | none => none

/-- The levels of nesting that a JSON text may have. -/
def maxDepth : Nat := 127

/-- Read the value in a text. -/
def parse? (text : String) : Option Json :=
  (Written.parse? text).bind (Written.value? maxDepth)

end AnnotatedApi.Json
