import AnnotatedApi.Json.Basic
import AnnotatedApi.Yaml.Style

/-! # Writing YAML texts

A value is written with one member or item a line. The members of a record that is a member itself
stand two columns further right, the items of a list that is a member in the column of its name. -/

namespace AnnotatedApi.Yaml

/-- A number of blanks. -/
def blanks (n : Nat) : List Char :=
  List.replicate n ' '

/-! ## Texts -/

/-- A digit of a code, in upper case. -/
def codeDigit (n : Nat) : Char :=
  if n < 10 then Char.ofNat ('0'.toNat + n) else Char.ofNat ('A'.toNat + n - 10)

/-- The last hexadecimal digits of a code, that many. -/
def codeDigits : Nat → Nat → List Char
  | 0, _ => []
  | n + 1, code => codeDigits n (code / 16) ++ [codeDigit (code % 16)]

/-- The letters that stand for characters after a backslash. -/
def escapeLetters : List (Nat × Char) :=
  [(0, '0'), (7, 'a'), (8, 'b'), (9, 't'), (10, 'n'), (11, 'v'), (12, 'f'), (13, 'r'), (27, 'e'),
   (34, '"'), (92, '\\'), (0x85, 'N'), (0xA0, '_'), (0x2028, 'L'), (0x2029, 'P')]

/-- A character between double quotes. -/
def escaped (c : Char) : List Char :=
  let code := c.toNat
  if isPrintable c && !isBreak c && c != '"' && c != '\\' then [c]
  else
    match escapeLetters.find? fun entry => entry.1 == code with
    | some (_, letter) => ['\\', letter]
    | none =>
        if code ≤ 0xFF then '\\' :: 'x' :: codeDigits 2 code
        else if code ≤ 0xFFFF then '\\' :: 'u' :: codeDigits 4 code
        else '\\' :: 'U' :: codeDigits 8 code

/-- Characters between double quotes. -/
def inDouble (chars : List Char) : List Char :=
  '"' :: chars.flatMap escaped ++ ['"']

/-- The single quote. -/
def singleQuote : Char :=
  Char.ofNat 0x27

/-- Characters on lines that start at a column; `atStart` says whether a line starts here. -/
def indented (write : Char → List Char) (column : Nat) (atStart : Bool) : List Char → List Char
  | [] => []
  | c :: rest =>
      if isBreak c then c :: indented write column true rest
      else (if atStart then blanks column else []) ++ write c ++ indented write column false rest

/-- Characters between single quotes; a quote among them is written twice. -/
def inSingle (column : Nat) (chars : List Char) : List Char :=
  let write := fun c => if c == singleQuote then [c, c] else [c]
  let lastLine := if chars.getLast?.any isBreak then blanks column else []
  singleQuote :: indented write column false chars ++ lastLine ++ [singleQuote]

/-- The mark that says what becomes of the line breaks at the end of a block of lines. -/
def chompingMark (chars : List Char) : List Char :=
  match chars.reverse with
  | last :: rest => if !isBreak last then ['-'] else if startsBreak rest then ['+'] else []
  | [] => ['-']

/-- A block of lines: its header, and the lines from a column on. -/
def inLines (column : Nat) (chars : List Char) : List Char :=
  let increment := if chars.head?.any fun c => c == ' ' || isBreak c then ['2'] else []
  '|' :: increment ++ chompingMark chars ++ '\n' :: indented (fun c => [c]) column true chars

/-- A text; further lines of it start at a column. -/
def textChars (column : Nat) (text : String) : List Char :=
  match styleOf text with
  | .plain => text.toList
  | .single => inSingle column text.toList
  | .double => inDouble text.toList
  | .lines => inLines column text.toList

/-- Characters up to the start of the next line. -/
def endLine (chars : List Char) : List Char :=
  if chars.getLast?.any isBreak then chars else chars ++ ['\n']

/-! ## Values -/

/-- Whether a name can stand before its colon on one line: it holds no line break and its characters
take up no more than 128 bytes. -/
def isSimpleName (name : String) : Bool :=
  !name.toList.any isBreak && name.utf8ByteSize ≤ 128

/-- A value that takes up no lines of its own, or the start of one that does. -/
def scalarChars (column : Nat) : Json → List Char
  | .null => "null".toList
  | .bool true => "true".toList
  | .bool false => "false".toList
  | .number n => n.text Number.yamlFormat
  | .text value => textChars column value
  | .array _ => "[]".toList
  | .object _ => ['\x7b', '\x7d']

mutual

/-- A value that starts in a column of the current line. -/
def nodeChars (column : Nat) : Json → List Char
  | .array (item :: rest) => itemsChars column (item :: rest)
  | .object (member :: rest) => membersChars column (member :: rest)
  | .array [] => endLine (scalarChars column (.array []))
  | .object [] => endLine (scalarChars column (.object []))
  | .null => endLine (scalarChars column .null)
  | .bool value => endLine (scalarChars column (.bool value))
  | .number n => endLine (scalarChars column (.number n))
  | .text value => endLine (scalarChars column (.text value))

/-- A value after the colon of a member in a column. -/
def valueChars (column : Nat) : Json → List Char
  | .array (item :: rest) => '\n' :: blanks column ++ itemsChars column (item :: rest)
  | .object (member :: rest) =>
      '\n' :: blanks (column + 2) ++ membersChars (column + 2) (member :: rest)
  | .array [] => ' ' :: endLine (scalarChars (column + 2) (.array []))
  | .object [] => ' ' :: endLine (scalarChars (column + 2) (.object []))
  | .null => ' ' :: endLine (scalarChars (column + 2) .null)
  | .bool value => ' ' :: endLine (scalarChars (column + 2) (.bool value))
  | .number n => ' ' :: endLine (scalarChars (column + 2) (.number n))
  | .text value => ' ' :: endLine (scalarChars (column + 2) (.text value))

/-- Items in a column; the first starts on the current line. -/
def itemsChars (column : Nat) : List Json → List Char
  | [] => []
  | item :: rest =>
      '-' :: ' ' :: nodeChars (column + 2) item ++
        (if rest.isEmpty then [] else blanks column ++ itemsChars column rest)

/-- Members in a column; the first starts on the current line. A name that is not simple follows a
question mark. -/
def membersChars (column : Nat) : List (String × Json) → List Char
  | [] => []
  | (name, value) :: rest =>
      (if isSimpleName name then textChars (column + 2) name ++ ':' :: valueChars column value
        else
          '?' :: ' ' :: endLine (textChars (column + 2) name) ++ blanks column ++
            ':' :: ' ' :: nodeChars (column + 2) value) ++
        (if rest.isEmpty then [] else blanks column ++ membersChars column rest)

end

/-- Write a value. -/
def print (value : Json) : String :=
  String.ofList <|
    match value with
    | .text content => endLine (textChars 2 content)
    | value => nodeChars 0 value

end AnnotatedApi.Yaml
