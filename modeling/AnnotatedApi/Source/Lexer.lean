import AnnotatedApi.Source.Token
import AnnotatedApi.Text.Letters
import AnnotatedApi.Text.Blank

/-! # Cutting source text into lexemes

A lexer for Rust over lists of characters. Each reader takes what it recognises from the front and
returns it with the rest, or nothing. `Lexeme.scan` reads a whole text. -/

namespace AnnotatedApi.Source

/-! ## Names and suffixes -/

/-- Whether a name can start with the character. -/
def startsName (c : Char) : Bool :=
  c == '_' || Text.isIdentifierStart c

/-- Read a name without a raw mark. -/
def readPlainName : List Char → Option (List Char × List Char)
  | [] => none
  | c :: rest =>
      if startsName c then
        some (c :: rest.takeWhile Text.isIdentifierContinue,
          rest.dropWhile Text.isIdentifierContinue)
      else none

/-- The names that cannot be written as raw names. -/
def neverRaw : List String := ["_", "super", "self", "Self", "crate"]

/-- Read a name, raw or not, keeping the mark of a raw one. -/
def readAnyName : List Char → Option (String × List Char)
  | 'r' :: '#' :: rest => do
      let (name, after) ← readPlainName rest
      if neverRaw.contains (String.ofList name) then none
      else pure (String.ofList ('r' :: '#' :: name), after)
  | chars => do
      let (name, after) ← readPlainName chars
      pure (String.ofList name, after)

/-- The ways in which a literal with a letter in front starts. -/
def literalFronts : List String :=
  ["r\"", "r#\"", "r##", "b\"", "b'", "br\"", "br#", "c\"", "cr\"", "cr#"]

/-- Whether a literal with a letter in front starts here. -/
def startsFrontedLiteral (chars : List Char) : Bool :=
  literalFronts.any fun front => (Text.stripFront? front.toList chars).isSome

/-- Read a name where no literal with a letter in front starts. -/
def readName (chars : List Char) : Option (String × List Char) :=
  if startsFrontedLiteral chars then none else readAnyName chars

/-- Read the type suffix of a literal, which may be empty. -/
def readSuffix (chars : List Char) : String × List Char :=
  match readPlainName chars with
  | some (name, rest) => (String.ofList name, rest)
  | none => ("", chars)

/-! ## Comments and white space -/

/-- Read to the end of a line; a carriage return before the line feed is left out. -/
def readLine : List Char → List Char × List Char
  | [] => ([], [])
  | '\n' :: rest => ([], '\n' :: rest)
  | '\r' :: '\n' :: rest => ([], '\r' :: '\n' :: rest)
  | c :: rest => (c :: (readLine rest).1, (readLine rest).2)

/-- Read the rest of a block comment of which `depth` levels are open; `done` holds its characters
so far in reverse, the closing mark included. -/
def readBlockComment (done : List Char) : Nat → List Char → Option (List Char × List Char)
  | _, [] => none
  | depth, '/' :: '*' :: rest => readBlockComment ('*' :: '/' :: done) (depth + 1) rest
  | depth, '*' :: '/' :: rest =>
      if depth ≤ 1 then some (('/' :: '*' :: done).reverse, rest)
      else readBlockComment ('/' :: '*' :: done) (depth - 1) rest
  | depth, c :: rest => readBlockComment (c :: done) depth rest

/-- Read a block comment with its marks. -/
def blockComment? : List Char → Option (List Char × List Char)
  | '/' :: '*' :: rest => readBlockComment ['*', '/'] 1 rest
  | _ => none

/-- Whether a line comment that documents nothing starts here. -/
def startsPlainLineComment : List Char → Bool
  | '/' :: '/' :: '/' :: '/' :: _ => true
  | '/' :: '/' :: '/' :: _ => false
  | '/' :: '/' :: '!' :: _ => false
  | '/' :: '/' :: _ => true
  | _ => false

/-- Whether a block comment that documents nothing starts here. -/
def startsPlainBlockComment : List Char → Bool
  | '/' :: '*' :: '*' :: '/' :: _ => true
  | '/' :: '*' :: '*' :: '*' :: _ => true
  | '/' :: '*' :: '*' :: _ => false
  | '/' :: '*' :: '!' :: _ => false
  | '/' :: '*' :: _ => true
  | _ => false

/-- Whether the character is white space of source text. -/
def isSourceBlank (c : Char) : Bool :=
  Text.isBlank c || c.toNat == 0x200E || c.toNat == 0x200F

/-- Skip white space and comments that document nothing, for at most `fuel` pieces. -/
def skipBlanksFrom : Nat → List Char → List Char
  | 0, chars => chars
  | fuel + 1, chars =>
      if startsPlainLineComment chars then skipBlanksFrom fuel (readLine chars).2
      else if startsPlainBlockComment chars then
        match chars with
        | '/' :: '*' :: '*' :: '/' :: rest => skipBlanksFrom fuel rest
        | _ =>
            match blockComment? chars with
            | some (_, rest) => skipBlanksFrom fuel rest
            | none => chars
      else
        match chars with
        | c :: rest => if isSourceBlank c then skipBlanksFrom fuel rest else chars
        | [] => []

/-- Skip white space and comments that document nothing. -/
def skipBlanks (chars : List Char) : List Char :=
  skipBlanksFrom (chars.length + 1) chars

/-- Whether every carriage return is followed by a line feed. -/
def noBareReturn : List Char → Bool
  | [] => true
  | '\r' :: '\n' :: rest => noBareReturn rest
  | '\r' :: _ => false
  | _ :: rest => noBareReturn rest

/-- What a documentation comment says and whether it documents what it stands in. -/
structure DocComment where
  text : List Char
  inner : Bool

/-- The characters of a block comment without its marks, `skip` of them in front. -/
def blockBody (skip : Nat) (comment : List Char) : List Char :=
  (comment.drop skip).take (comment.length - skip - 2)

/-- Read a documentation comment. -/
def readDocComment : List Char → Option (DocComment × List Char)
  | '/' :: '/' :: '!' :: rest =>
      let (text, after) := readLine rest
      some (⟨text, true⟩, after)
  | '/' :: '*' :: '!' :: rest => do
      let (comment, after) ← blockComment? ('/' :: '*' :: '!' :: rest)
      pure (⟨blockBody 3 comment, true⟩, after)
  | '/' :: '/' :: '/' :: rest =>
      if rest.head? = some '/' then none
      else
        let (text, after) := readLine rest
        some (⟨text, false⟩, after)
  | '/' :: '*' :: '*' :: rest =>
      if rest.head? = some '*' then none
      else do
        let (comment, after) ← blockComment? ('/' :: '*' :: '*' :: rest)
        pure (⟨blockBody 3 comment, false⟩, after)
  | _ => none

/-- The lexemes of the attribute that a documentation comment stands for. -/
def DocComment.lexemes (comment : DocComment) : List Lexeme :=
  (if comment.inner then [.sign '#' true, .sign '!' false] else [.sign '#' false]) ++
    [.opening .bracket, .name "doc", .sign '=' false,
      .literal ⟨.text (String.ofList comment.text), "", []⟩, .closing .bracket]

/-! ## Escapes -/

/-- The value of a hexadecimal digit of either case. -/
def hexDigit? (c : Char) : Option Nat :=
  if '0' ≤ c ∧ c ≤ '9' then some (c.toNat - '0'.toNat)
  else if 'a' ≤ c ∧ c ≤ 'f' then some (c.toNat - 'a'.toNat + 10)
  else if 'A' ≤ c ∧ c ≤ 'F' then some (c.toNat - 'A'.toNat + 10)
  else none

/-- Whether a code point is a character. -/
def isScalarValue (code : Nat) : Bool :=
  code < 0xD800 || (0xE000 ≤ code && code < 0x110000)

/-- Read the digits of a braced code point up to the closing brace; `count` of them were read. -/
def readBracedCode (value count : Nat) : List Char → Option (Char × List Char)
  | [] => none
  | c :: rest =>
      if c = '_' ∧ 0 < count then readBracedCode value count rest
      else if c = '\x7d' ∧ 0 < count then
        if isScalarValue value then some (Char.ofNat value, rest) else none
      else
        match hexDigit? c with
        | none => none
        | some digit =>
            if count = 6 then none else readBracedCode (value * 16 + digit) (count + 1) rest

/-- The apostrophe. -/
def apostrophe : Char := Char.ofNat 0x27

/-- Read what follows the backslash of an escape that every kind of literal has. -/
def readSimpleEscape : List Char → Option (Char × List Char)
  | [] => none
  | c :: rest =>
      if c = 'n' then some ('\n', rest)
      else if c = 'r' then some ('\r', rest)
      else if c = 't' then some ('\t', rest)
      else if c = '0' then some (Char.ofNat 0, rest)
      else if c = '\\' ∨ c = '"' ∨ c = apostrophe then some (c, rest)
      else none

/-- Read what follows the backslash of an escape given by a code of two digits below `limit`. -/
def readCodeEscape (limit : Nat) : List Char → Option (Char × List Char)
  | 'x' :: a :: b :: rest => do
      let high ← hexDigit? a
      let low ← hexDigit? b
      if high * 16 + low < limit then pure (Char.ofNat (high * 16 + low), rest) else none
  | _ => none

/-- Read what follows the backslash of an escape given by a braced code point. -/
def readPointEscape : List Char → Option (Char × List Char)
  | 'u' :: '\x7b' :: rest => readBracedCode 0 0 rest
  | _ => none

/-- What a kind of quoted literal may hold: which escapes it has and which other characters. -/
structure QuoteStyle where
  escape : List Char → Option (Char × List Char)
  plain : Char → Bool

/-- Strings and characters. -/
def textStyle : QuoteStyle where
  escape chars := readSimpleEscape chars <|> readCodeEscape 128 chars <|> readPointEscape chars
  plain _ := true

/-- Bytes and strings of bytes. -/
def byteStyle : QuoteStyle where
  escape chars := readSimpleEscape chars <|> readCodeEscape 256 chars
  plain c := c.toNat < 128

/-- Strings that end with a zero character, which may not occur inside. -/
def zeroEndedStyle : QuoteStyle where
  escape chars := do
    let (c, rest) ← readSimpleEscape chars <|> readCodeEscape 256 chars <|> readPointEscape chars
    if c.toNat = 0 then none else pure (c, rest)
  plain c := c.toNat ≠ 0

/-! ## Texts in quotes -/

/-- Whether the character is a blank that may follow an escaped line end. -/
def isLineBlank (c : Char) : Bool :=
  c == ' ' || c == '\t' || c == '\n' || c == '\r'

/-- Skip the blanks after an escaped line end. A lone carriage return and the end of the text are
refused. -/
def skipLineBlanks (chars : List Char) : Option (List Char) :=
  let skipped := chars.takeWhile isLineBlank
  let rest := chars.dropWhile isLineBlank
  if noBareReturn skipped && !rest.isEmpty then some rest else none

/-- What follows the line end that comes after a backslash. -/
def afterLineEnd? : List Char → Option (List Char)
  | '\n' :: rest => some rest
  | '\r' :: '\n' :: rest => some rest
  | _ => none

/-- Read the inside of a cooked literal and its closing quote; `done` holds the characters so far in
reverse. -/
def readCookedFrom (style : QuoteStyle) (done : List Char) :
    Nat → List Char → Option (List Char × List Char)
  | 0, _ => none
  | _ + 1, [] => none
  | fuel + 1, c :: rest =>
      if c = '"' then some (done.reverse, rest)
      else if c = '\r' then
        match rest with
        | '\n' :: after => readCookedFrom style ('\n' :: done) fuel after
        | _ => none
      else if c = '\\' then
        match afterLineEnd? rest with
        | some after =>
            match skipLineBlanks after with
            | some after => readCookedFrom style done fuel after
            | none => none
        | none =>
            match style.escape rest with
            | some (e, after) => readCookedFrom style (e :: done) fuel after
            | none => none
      else if style.plain c then readCookedFrom style (c :: done) fuel rest
      else none

/-- Read the inside of a cooked literal and its closing quote. -/
def readCooked (style : QuoteStyle) (chars : List Char) : Option (List Char × List Char) :=
  readCookedFrom style [] (chars.length + 1) chars

/-- Read the inside of a raw literal up to a quote with `hashes` after it; `done` holds the
characters so far in reverse. -/
def readRawFrom (hashes : List Char) (plain : Char → Bool) (done : List Char) :
    List Char → Option (List Char × List Char)
  | [] => none
  | c :: rest =>
      match (if c = '"' then Text.stripFront? hashes rest else none) with
      | some after => some (done.reverse, after)
      | none =>
          if c = '\r' ∧ rest.head? ≠ some '\n' then none
          else if plain c then readRawFrom hashes plain (c :: done) rest
          else none

/-- Read a raw literal after its letter. -/
def readRaw (plain : Char → Bool) (chars : List Char) : Option (List Char × List Char) :=
  let hashes := chars.takeWhile (· = '#')
  if 255 < hashes.length then none
  else
    match chars.dropWhile (· = '#') with
    | '"' :: rest => readRawFrom hashes plain [] rest
    | _ => none

/-- Read a character or a byte after its opening apostrophe. -/
def readQuotedChar (style : QuoteStyle) (chars : List Char) : Option (Char × List Char) := do
  let (c, rest) ←
    match chars with
    | [] => none
    | c :: rest =>
        if c = '\\' then style.escape rest else if style.plain c then some (c, rest) else none
  match rest with
  | c' :: after => if c' = apostrophe then some (c, after) else none
  | [] => none

/-- Add a suffix to the value of a quoted literal. -/
def withSuffix (value : LiteralValue) (rest : List Char) : Literal × List Char :=
  let (suffix, after) := readSuffix rest
  (⟨value, suffix, []⟩, after)

/-- Read a string or character literal of any kind. -/
def readQuotedLiteral (chars : List Char) : Option (Literal × List Char) :=
  match chars with
  | '"' :: rest =>
      (readCooked textStyle rest).map fun (text, after) =>
        withSuffix (.text (String.ofList text)) after
  | 'r' :: rest =>
      (readRaw textStyle.plain rest).map fun (text, after) =>
        withSuffix (.text (String.ofList text)) after
  | 'b' :: '"' :: rest =>
      (readCooked byteStyle rest).map fun (_, after) => withSuffix .other after
  | 'b' :: 'r' :: rest =>
      (readRaw byteStyle.plain rest).map fun (_, after) => withSuffix .other after
  | 'c' :: '"' :: rest =>
      (readCooked zeroEndedStyle rest).map fun (_, after) => withSuffix .other after
  | 'c' :: 'r' :: rest =>
      (readRaw zeroEndedStyle.plain rest).map fun (_, after) => withSuffix .other after
  | 'b' :: quote :: rest =>
      if quote = apostrophe then
        (readQuotedChar byteStyle rest).map fun (_, after) => withSuffix .other after
      else none
  | quote :: rest =>
      if quote = apostrophe then
        (readQuotedChar textStyle rest).map fun (c, after) => withSuffix (.char c) after
      else none
  | [] => none

/-! ## Numbers -/

/-- Whether a number may end here: no name continues it. -/
def endsWord : List Char → Bool
  | [] => true
  | c :: _ => !Text.isIdentifierContinue c

/-- Whether the character is a digit or an underscore. -/
def isDigitOrGap (c : Char) : Bool :=
  Text.isDigit c || c == '_'

/-- Read an exponent after its letter: an optional sign and digits, of which there is at least one
besides underscores. -/
def readExponentPart (chars : List Char) : Option (List Char × List Char) :=
  let gap := chars.takeWhile (· = '_')
  let rest := chars.dropWhile (· = '_')
  let (sign, rest) :=
    match rest with
    | '+' :: more => (['+'], more)
    | '-' :: more => (['-'], more)
    | _ => ([], rest)
  let digits := rest.takeWhile isDigitOrGap
  if digits.any Text.isDigit then some (gap ++ sign ++ digits, rest.dropWhile isDigitOrGap)
  else none

/-- Read the characters of a number with a point or an exponent. -/
def readRealChars (chars : List Char) : Option (List Char × List Char) :=
  if (chars.head?.map Text.isDigit).getD false then
    let whole := chars.takeWhile isDigitOrGap
    let rest := chars.dropWhile isDigitOrGap
    match rest with
    | '.' :: more =>
        match more with
        | [] => some (whole ++ ['.'], [])
        | c :: _ =>
            if c = '.' || startsName c then none
            else
              let fraction := more.takeWhile isDigitOrGap
              let after := more.dropWhile isDigitOrGap
              let mantissa := whole ++ '.' :: fraction
              match after with
              | 'e' :: tail => withExponent mantissa 'e' tail after
              | 'E' :: tail => withExponent mantissa 'E' tail after
              | _ => some (mantissa, after)
    | 'e' :: tail =>
        (readExponentPart tail).map fun (exponent, after) => (whole ++ 'e' :: exponent, after)
    | 'E' :: tail =>
        (readExponentPart tail).map fun (exponent, after) => (whole ++ 'e' :: exponent, after)
    | _ => none
  else none
where
  /-- Add the exponent after `mark` if there is one; otherwise the letter belongs to the suffix. -/
  withExponent (mantissa : List Char) (mark : Char) (tail after : List Char) :
      Option (List Char × List Char) :=
    match readExponentPart tail with
    | some (exponent, rest) => some (mantissa ++ mark :: exponent, rest)
    | none => some (mantissa, after)

/-- The value of decimal digits, anything else skipped. -/
def decimalValue (chars : List Char) : Nat :=
  (chars.filter Text.isDigit).foldl (fun value c => value * 10 + (c.toNat - '0'.toNat)) 0

/-- The number that the characters of a number with a point or an exponent denote. -/
def realValue (chars : List Char) : LiteralValue :=
  let mantissa := chars.takeWhile (fun c => c ≠ 'e' && c ≠ 'E')
  let exponent := chars.dropWhile (fun c => c ≠ 'e' && c ≠ 'E')
  let fraction := (mantissa.dropWhile (· ≠ '.')).filter Text.isDigit
  let e : Int := decimalValue exponent
  .real false (decimalValue mantissa) ((if exponent.contains '-' then -e else e) - fraction.length)

/-- Read a number with a point or an exponent. -/
def readReal (chars : List Char) : Option (Literal × List Char) := do
  let (written, rest) ← readRealChars chars
  let (suffix, after) := readSuffix rest
  if endsWord after then pure (⟨realValue written, suffix, written⟩, after) else none

/-- Read the digits of an integer in a base: its value, whether there was a digit, and the rest. A
decimal digit that the base does not have is refused, a letter ends the digits. -/
def readDigits (base value : Nat) (found : Bool) : List Char → Option (Nat × Bool × List Char)
  | [] => some (value, found, [])
  | c :: rest =>
      if c = '_' then
        if !found && base = 10 then none else readDigits base value found rest
      else
        match hexDigit? c with
        | none => some (value, found, c :: rest)
        | some digit =>
            if digit < base then readDigits base (value * base + digit) true rest
            else if Text.isDigit c then none
            else some (value, found, c :: rest)

/-- Read an integer in any base. -/
def readInteger (chars : List Char) : Option (Literal × List Char) := do
  let (base, digits) :=
    match chars with
    | '0' :: 'x' :: rest => (16, rest)
    | '0' :: 'o' :: rest => (8, rest)
    | '0' :: 'b' :: rest => (2, rest)
    | _ => (10, chars)
  let (value, found, rest) ← readDigits base 0 false digits
  let (suffix, after) := readSuffix rest
  if found && endsWord after then pure (⟨.integer value, suffix, []⟩, after) else none

/-- Read a literal. -/
def readLiteral (chars : List Char) : Option (Literal × List Char) :=
  readQuotedLiteral chars <|> readReal chars <|> readInteger chars

/-- The text that stands for a literal which could not be formed. -/
def brokenLiteral : List Char := "(/*ERROR*/)".toList

/-- Read the text that stands for a literal which could not be formed; it has no suffix. -/
def readBrokenLiteral (chars : List Char) : Option (Literal × List Char) :=
  (Text.stripFront? brokenLiteral chars).map fun rest => (⟨.other, "", []⟩, rest)

/-! ## Signs and delimiters -/

/-- The characters that are signs; the apostrophe is treated apart. -/
def signs : List Char := "~!@#$%^&*-=+|;:,<.>/?".toList

/-- Whether a sign starts here, the apostrophe included. -/
def startsSign : List Char → Bool
  | '/' :: '/' :: _ => false
  | '/' :: '*' :: _ => false
  | c :: _ => signs.contains c || c = apostrophe
  | [] => false

/-- Read a lifetime. An apostrophe after the name would make a character of it. Before a literal
with a letter in front, the apostrophe is a sign of its own. -/
def readLifetime : List Char → Option (Lexeme × List Char)
  | [] => none
  | c :: rest =>
      if c = apostrophe then
        match readAnyName rest with
        | none => none
        | some (name, after) =>
            let raw := (Text.stripFront? ['r', '#'] rest).isSome
            if after.head? = some apostrophe ∨ (after.head? = some '#' ∧ !raw) then none
            else if startsFrontedLiteral rest then some (.sign apostrophe true, rest)
            else some (.lifetime name, after)
      else none

/-- Read a sign. -/
def readSign (chars : List Char) : Option (Lexeme × List Char) :=
  match chars with
  | c :: rest =>
      if startsSign chars ∧ c ≠ apostrophe then some (.sign c (startsSign rest), rest) else none
  | [] => none

/-- Read a delimiter. -/
def readDelimiter : List Char → Option (Lexeme × List Char)
  | '(' :: rest => some (.opening .paren, rest)
  | ')' :: rest => some (.closing .paren, rest)
  | '[' :: rest => some (.opening .bracket, rest)
  | ']' :: rest => some (.closing .bracket, rest)
  | '\x7b' :: rest => some (.opening .brace, rest)
  | '\x7d' :: rest => some (.closing .brace, rest)
  | _ => none

/-! ## Whole texts -/

/-- Read one lexeme other than a comment. -/
def readLexeme (chars : List Char) : Option (Lexeme × List Char) :=
  (readBrokenLiteral chars).map (fun (l, rest) => (.literal l, rest))
    <|> readDelimiter chars
    <|> (readLiteral chars).map (fun (l, rest) => (.literal l, rest))
    <|> readLifetime chars
    <|> readSign chars
    <|> (readName chars).map (fun (name, rest) => (.name name, rest))

/-- Read lexemes up to the end of the text; `done` holds those so far in reverse. -/
def scanFrom (done : List Lexeme) : Nat → List Char → Option (List Lexeme)
  | 0, _ => none
  | fuel + 1, chars =>
      match skipBlanks chars with
      | [] => some done.reverse
      | c :: rest =>
          match readDocComment (c :: rest) with
          | some (comment, after) =>
              if noBareReturn comment.text then
                scanFrom (comment.lexemes.reverse ++ done) fuel after
              else none
          | none =>
              match readLexeme (c :: rest) with
              | some (lexeme, after) => scanFrom (lexeme :: done) fuel after
              | none => none

/-- A text without the mark of its byte order. -/
def dropByteOrderMark : List Char → List Char
  | [] => []
  | c :: rest => if c.toNat = 0xFEFF then rest else c :: rest

/-- The lexemes of a text. -/
def Lexeme.scan (chars : List Char) : Option (List Lexeme) :=
  let chars := dropByteOrderMark chars
  scanFrom [] (chars.length + 1) chars

/-- The token trees of a text. -/
def Token.read (chars : List Char) : Option (List Token) :=
  (Lexeme.scan chars).bind (Token.gather [] [])

/-- The token trees of a source file, whose first line may be addressed to the system. -/
def Token.readFile (text : String) : Option (List Token) :=
  let chars := dropByteOrderMark text.toList
  match chars with
  | '#' :: '!' :: rest =>
      match skipBlanks rest with
      | '[' :: _ => Token.read chars
      | _ => Token.read (chars.dropWhile (· ≠ '\n'))
  | _ => Token.read chars

end AnnotatedApi.Source
