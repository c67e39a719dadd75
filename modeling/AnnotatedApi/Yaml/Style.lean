import AnnotatedApi.Datum.Plain
import AnnotatedApi.Yaml.Cursor

/-! # How texts are written in YAML

A text is written without quotes where a reader takes that for the same text. What would be read as
something else goes between single quotes, what those cannot hold between double quotes, and a text
of several lines becomes a block of lines. -/

namespace AnnotatedApi.Yaml

/-- The ways to write a text. -/
inductive Style where
  | plain
  | single
  | double
  | lines
  deriving DecidableEq, Repr

/-! ## Classes of characters -/

/-- Whether a character can be written as it is. -/
def isPrintable (c : Char) : Bool :=
  let code := c.toNat
  code == 0xA || (0x20 ≤ code && code ≤ 0x7E) ||
    (0xA0 ≤ code && code ≤ 0xFFFD && code != 0xFEFF) || 0x10000 ≤ code

/-- The characters that start something else than a plain text. -/
def isOpeningMark (c : Char) : Bool :=
  "#,[]&*!|>'\"%@".toList.contains c || c == '\x7b' || c == '\x7d' || c.toNat == 96

/-! ## What texts hold -/

/-- Whether a character that satisfies `p` comes directly before one that satisfies `q`. -/
def hasPair (p q : Char → Bool) : List Char → Bool
  | a :: b :: rest => (p a && q b) || hasPair p q (b :: rest)
  | _ => false

/-- Whether the first or the last character satisfies `p`. -/
def hasAtEnd (p : Char → Bool) (chars : List Char) : Bool :=
  chars.head?.any p || chars.getLast?.any p

/-- Whether every character can be written as it is and no line ends with a blank. -/
def fitsLines (chars : List Char) : Bool :=
  chars.all isPrintable && !hasPair (· == ' ') isBreak chars

/-- Whether single quotes can hold the characters. -/
def fitsSingle (chars : List Char) : Bool :=
  fitsLines chars && !hasPair isBreak (· == ' ') chars

/-- Whether the start of a text marks something else. -/
def startsMark : List Char → Bool
  | '-' :: '-' :: '-' :: _ => true
  | '.' :: '.' :: '.' :: _ => true
  | c :: rest => isOpeningMark c || ((c == '?' || c == ':' || c == '-') && startsBlank rest)
  | [] => false

/-- Whether a colon before a blank or the end, or a number sign after a blank, follows in a text. -/
def holdsMark : List Char → Bool
  | [] => false
  | c :: rest =>
      (c == ':' && startsBlank rest) ||
        ((isSpacing c || isBreak c) && rest.head? == some '#') || holdsMark rest

/-- Whether a text on a line of its own reads back without quotes. -/
def fitsPlain (chars : List Char) : Bool :=
  fitsSingle chars && !hasAtEnd (· == ' ') chars && !chars.any isBreak && !startsMark chars &&
    !holdsMark chars

/-- Whether a plain text would be read as null, a boolean or a number, or could be taken for one. -/
def readsOtherwise (text : String) : Bool :=
  match Plain.kind text with
  | .text => Plain.hasLeadingZero text.toList
  | _ => true

/-- The way to write a text. -/
def styleOf (text : String) : Style :=
  let chars := text.toList
  if chars.contains '\n' then
    if fitsLines chars && chars.getLast? != some ' ' then .lines else .double
  else if !readsOtherwise text && fitsPlain chars then .plain
  else if fitsSingle chars then .single
  else .double

end AnnotatedApi.Yaml
