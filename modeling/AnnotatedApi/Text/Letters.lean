import AnnotatedApi.Text.LetterTables

/-! # Letters and their case

Case properties and full case mappings of characters and texts. ASCII is decided directly; every
other character is looked up in the tables. Texts are mapped character by character, except that a
capital sigma which ends a word becomes the final form of the small letter. -/

namespace AnnotatedApi.Text

/-! ## Properties of characters -/

/-- Whether the character is a small letter. -/
def isLower (c : Char) : Bool :=
  if c.toNat < 128 then 'a' ≤ c && c ≤ 'z' else lowercaseRuns.any (·.contains c.toNat)

/-- Whether the character is a capital letter. -/
def isUpper (c : Char) : Bool :=
  if c.toNat < 128 then 'A' ≤ c && c ≤ 'Z' else uppercaseRuns.any (·.contains c.toNat)

/-- Whether the character is an ASCII decimal digit. -/
def isDigit (c : Char) : Bool :=
  '0' ≤ c && c ≤ '9'

/-- Whether the character is an ASCII letter or digit. -/
def isAsciiAlphanumeric (c : Char) : Bool :=
  isDigit c || ('a' ≤ c && c ≤ 'z') || ('A' ≤ c && c ≤ 'Z')

/-- Whether the character has case: it is a small, capital or titlecase letter. -/
def isCased (c : Char) : Bool :=
  isLower c || isUpper c || titlecaseRuns.any (·.contains c.toNat)

/-- Whether the character is skipped when the end of a cased word is looked for. -/
def isCaseIgnorable (c : Char) : Bool :=
  if c.toNat < 128 then [0x27, 0x2E, 0x3A, 0x5E, 0x60].contains c.toNat
  else caseIgnorableRuns.any (·.contains c.toNat)

/-- Whether the character may start an identifier, the underscore apart. -/
def isIdentifierStart (c : Char) : Bool :=
  if c.toNat < 128 then ('a' ≤ c && c ≤ 'z') || ('A' ≤ c && c ≤ 'Z')
  else identifierStartRuns.any (·.contains c.toNat)

/-- Whether the character may continue an identifier. -/
def isIdentifierContinue (c : Char) : Bool :=
  if c.toNat < 128 then isAsciiAlphanumeric c || c == '_'
  else identifierContinueRuns.any (·.contains c.toNat)

/-! ## Case mappings of characters -/

/-- The small form of an ASCII capital; any other character unchanged. -/
def asciiLower (c : Char) : Char :=
  if 'A' ≤ c ∧ c ≤ 'Z' then Char.ofNat (c.toNat + 32) else c

/-- The capital form of a small ASCII letter; any other character unchanged. -/
def asciiUpper (c : Char) : Char :=
  if 'a' ≤ c ∧ c ≤ 'z' then Char.ofNat (c.toNat - 32) else c

/-- The lower-case form of a character, which may be several characters. -/
def lowerChar (c : Char) : List Char :=
  if c.toNat < 128 then [asciiLower c] else (mapCode toLowerTable c.toNat).map Char.ofNat

/-- The upper-case form of a character, which may be several characters. -/
def upperChar (c : Char) : List Char :=
  if c.toNat < 128 then [asciiUpper c] else (mapCode toUpperTable c.toNat).map Char.ofNat

/-! ## Case mappings of texts -/

/-- Whether the first character that is not ignorable has case. -/
def meetsCased (chars : List Char) : Bool :=
  match chars.find? (fun c => !isCaseIgnorable c) with
  | none => false
  | some c => isCased c

/-- Lower-case what follows the reversed text `before`. -/
def lowerFrom (before : List Char) : List Char → List Char
  | [] => []
  | c :: rest =>
      let image :=
        if c = 'Σ' then
          if meetsCased before && !meetsCased rest then ['ς'] else ['σ']
        else lowerChar c
      image ++ lowerFrom (c :: before) rest

/-- The lower-case form of a text. -/
def lower (text : String) : String :=
  String.ofList (lowerFrom [] text.toList)

/-- The upper-case form of a text. -/
def upper (text : String) : String :=
  String.ofList (text.toList.flatMap upperChar)

/-- Whether two texts agree once ASCII capitals are read as small letters. -/
def eqIgnoringAsciiCase (a b : String) : Bool :=
  a.toList.map asciiLower == b.toList.map asciiLower

end AnnotatedApi.Text
