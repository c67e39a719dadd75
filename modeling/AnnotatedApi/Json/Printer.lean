import AnnotatedApi.Json.Basic
import AnnotatedApi.Text.Blank

/-! # Text of JSON values

The compact text, without any blank, and the laid-out text, with one member or item a line and two
blanks for each level. Only quotes, backslashes and control characters are escaped. -/

namespace AnnotatedApi.Json

/-- A hexadecimal digit in lower case. -/
def hexDigit (n : Nat) : Char :=
  if n < 10 then Char.ofNat ('0'.toNat + n) else Char.ofNat ('a'.toNat + n - 10)

/-- The written form of a character inside quotes. -/
def escapeChar (c : Char) : List Char :=
  if c = '"' then ['\\', '"']
  else if c = '\\' then ['\\', '\\']
  else if c = '\n' then ['\\', 'n']
  else if c = '\r' then ['\\', 'r']
  else if c = '\t' then ['\\', 't']
  else if c.toNat = 8 then ['\\', 'b']
  else if c.toNat = 12 then ['\\', 'f']
  else if c.toNat < 32 then ['\\', 'u', '0', '0', hexDigit (c.toNat / 16), hexDigit (c.toNat % 16)]
  else [c]

/-- A text in quotes. -/
def quoted (text : String) : List Char :=
  '"' :: text.toList.flatMap escapeChar ++ ['"']

/-! ## Compact text -/

mutual

/-- The characters of the compact text. -/
def compactChars : Json → List Char
  | .null => ['n', 'u', 'l', 'l']
  | .bool true => ['t', 'r', 'u', 'e']
  | .bool false => ['f', 'a', 'l', 's', 'e']
  | .number n => n.text Number.jsonFormat
  | .text value => quoted value
  | .array items => '[' :: compactItems items ++ [']']
  | .object members => '\x7b' :: compactMembers members ++ ['\x7d']

/-- Items with commas between them. -/
def compactItems : List Json → List Char
  | [] => []
  | [item] => item.compactChars
  | item :: rest => item.compactChars ++ ',' :: compactItems rest

/-- Members with commas between them. -/
def compactMembers : List (String × Json) → List Char
  | [] => []
  | [(name, value)] => quoted name ++ ':' :: value.compactChars
  | (name, value) :: rest =>
      quoted name ++ ':' :: value.compactChars ++ ',' :: compactMembers rest

end

/-- The compact text. -/
def compact (value : Json) : String :=
  String.ofList value.compactChars

/-! ## Laid-out text -/

/-- A new line at a level. -/
def newLine (level : Nat) : List Char :=
  '\n' :: List.replicate (2 * level) ' '

mutual

/-- The characters of the laid-out text of a value at a level. -/
def prettyChars (level : Nat) : Json → List Char
  | .array [] => ['[', ']']
  | .array (item :: rest) =>
      '[' :: newLine (level + 1) ++ prettyItems (level + 1) (item :: rest) ++ newLine level ++ [']']
  | .object [] => ['\x7b', '\x7d']
  | .object (member :: rest) =>
      '\x7b' :: newLine (level + 1) ++ prettyMembers (level + 1) (member :: rest) ++
        newLine level ++ ['\x7d']
  | .null => ['n', 'u', 'l', 'l']
  | .bool true => ['t', 'r', 'u', 'e']
  | .bool false => ['f', 'a', 'l', 's', 'e']
  | .number n => n.text Number.jsonFormat
  | .text value => quoted value

/-- Items on lines of their own. -/
def prettyItems (level : Nat) : List Json → List Char
  | [] => []
  | [item] => item.prettyChars level
  | item :: rest => item.prettyChars level ++ ',' :: newLine level ++ prettyItems level rest

/-- Members on lines of their own. -/
def prettyMembers (level : Nat) : List (String × Json) → List Char
  | [] => []
  | [(name, value)] => quoted name ++ ':' :: ' ' :: value.prettyChars level
  | (name, value) :: rest =>
      quoted name ++ ':' :: ' ' :: value.prettyChars level ++ ',' :: newLine level ++
        prettyMembers level rest

end

/-- The laid-out text. -/
def pretty (value : Json) : String :=
  String.ofList (value.prettyChars 0)

end AnnotatedApi.Json
