/-! # Places in YAML texts

A cursor holds the characters that are still to be read, and how far it has come: its line, its
column and the number of bytes before it. -/

namespace AnnotatedApi.Yaml

/-- A place in a text. -/
structure Cursor where
  rest : List Char
  line : Nat := 0
  column : Nat := 0
  index : Nat := 0

/-! ## Classes of characters -/

/-- Whether the character ends a line. -/
def isBreak (c : Char) : Bool :=
  c == '\n' || c == '\r' || c.toNat == 0x85 || c.toNat == 0x2028 || c.toNat == 0x2029

/-- Whether the character is a blank within a line. -/
def isSpacing (c : Char) : Bool :=
  c == ' ' || c == '\t'

/-- Whether the character can be part of a name. -/
def isNameChar (c : Char) : Bool :=
  ('a' ≤ c && c ≤ 'z') || ('A' ≤ c && c ≤ 'Z') || ('0' ≤ c && c ≤ '9') || c == '_' || c == '-'

/-- Whether the character may occur in a text at all. -/
def isAllowed (c : Char) : Bool :=
  let code := c.toNat
  code == 0x9 || code == 0xA || code == 0xD || (0x20 ≤ code && code ≤ 0x7E) || code == 0x85 ||
    (0xA0 ≤ code && code ≤ 0xFFFD && code != 0xFEFF) || 0x10000 ≤ code

/-- Whether nothing, a blank or the end of a line comes first. -/
def startsBlank : List Char → Bool
  | [] => true
  | c :: _ => isSpacing c || isBreak c

/-- Whether a line ends here. -/
def startsBreak : List Char → Bool
  | [] => true
  | c :: _ => isBreak c

namespace Cursor

/-! ## Looking ahead -/

/-- Whether a character comes next. -/
def isAt (char : Char) (c : Cursor) : Bool :=
  c.rest.head? == some char

/-- Whether the text ends here. -/
def atEnd (c : Cursor) : Bool :=
  c.rest.isEmpty

/-- Whether a blank comes next. -/
def atSpacing (c : Cursor) : Bool :=
  match c.rest with
  | char :: _ => isSpacing char
  | [] => false

/-- Whether the end of a line comes next, and more text after it. -/
def atBreak (c : Cursor) : Bool :=
  match c.rest with
  | char :: _ => isBreak char
  | [] => false

/-- Whether a blank, the end of a line or the end of the text comes next. -/
def atBlank (c : Cursor) : Bool :=
  startsBlank c.rest

/-- Whether the mark between documents of the given character starts here. -/
def atDocumentMark (char : Char) (c : Cursor) : Bool :=
  c.column == 0 &&
    match c.rest with
    | a :: b :: d :: rest => a == char && b == char && d == char && startsBlank rest
    | _ => false

/-- Whether one of the marks between documents starts here. -/
def atAnyDocumentMark (c : Cursor) : Bool :=
  c.atDocumentMark '-' || c.atDocumentMark '.'

/-! ## Moving on -/

/-- The number of bytes that characters take. -/
def byteCount (chars : List Char) : Nat :=
  chars.foldl (fun n char => n + char.utf8Size) 0

/-- Move past a number of characters of a line. -/
def skip (n : Nat) (c : Cursor) : Cursor :=
  { c with
    rest := c.rest.drop n
    column := c.column + n
    index := c.index + byteCount (c.rest.take n) }

/-- Move past the end of a line; yields the character that stands for it. -/
def skipBreak (c : Cursor) : List Char × Cursor :=
  match c.rest with
  | '\r' :: '\n' :: rest =>
      (['\n'], { rest, line := c.line + 1, column := 0, index := c.index + 2 })
  | char :: rest =>
      let kept := if char.toNat == 0x2028 || char.toNat == 0x2029 then char else '\n'
      ([kept], { rest, line := c.line + 1, column := 0, index := c.index + char.utf8Size })
  | [] => ([], c)

/-- Move past the characters of a line that satisfy `p`; yields them. -/
def takeWhile (p : Char → Bool) (c : Cursor) : List Char × Cursor :=
  let taken := c.rest.takeWhile p
  (taken, c.skip taken.length)

/-- Move past blanks. -/
def skipSpacing (c : Cursor) : Cursor :=
  (c.takeWhile isSpacing).2

/-- Move to the end of the line. -/
def skipToBreak (c : Cursor) : Cursor :=
  (c.takeWhile fun char => !isBreak char).2

/-- Move past the end of a line, if it comes next. -/
def skipOptionalBreak (c : Cursor) : Cursor :=
  c.skipBreak.2

end Cursor

end AnnotatedApi.Yaml
