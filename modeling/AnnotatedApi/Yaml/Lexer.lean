import AnnotatedApi.Yaml.Scalar
import AnnotatedApi.Yaml.Token

/-! # Cutting YAML texts into tokens

The columns of block collections are kept on a stack: a greater column opens a collection, a
smaller one closes those it is left of. A node can turn out to be a key only when the colon after it
is read; so the place of each possible key is kept, one for every level of brackets and braces. -/

namespace AnnotatedApi.Yaml

/-! ## The state -/

/-- A node that can still turn out to be a key. -/
structure PossibleKey where
  /-- Whether the text is not valid unless it is one. -/
  isRequired : Bool
  /-- The number of tokens before it. -/
  position : Nat
  line : Nat
  column : Nat
  index : Nat

/-- The state of cutting: the tokens so far in reverse and their number, the column of the current
block collection and of those around it, and the possible key of each level of brackets, the
innermost first. -/
structure Lexer where
  cursor : Cursor
  tokens : List Token := []
  count : Nat := 0
  indent : Int := -1
  outer : List Int := []
  keys : List (Option PossibleKey) := [none]
  allowsKey : Bool := true

namespace Lexer

/-- Whether brackets or braces are open. -/
def inFlow (s : Lexer) : Bool :=
  s.keys.length > 1

/-- Add a token. -/
def emit (token : Token) (s : Lexer) : Lexer :=
  { s with tokens := token :: s.tokens, count := s.count + 1 }

/-- Insert an element that many places from the front. -/
def insertBehind (a : α) : Nat → List α → List α
  | 0, list => a :: list
  | _ + 1, [] => [a]
  | n + 1, b :: list => b :: insertBehind a n list

/-- Add a token at a position. -/
def emitAt (position : Nat) (token : Token) (s : Lexer) : Lexer :=
  { s with
    tokens := insertBehind token (s.count - position) s.tokens
    count := s.count + 1 }

/-! ## Columns -/

/-- Open a block collection at a column, unless one is open there. -/
def roll (column position : Nat) (token : Token) (s : Lexer) : Lexer :=
  if s.inFlow || (column : Int) ≤ s.indent then s
  else { s with indent := column, outer := s.indent :: s.outer }.emitAt position token

/-- Close the block collections right of a column. -/
def closeFrom (column : Int) : List Int → Lexer → Lexer
  | [], s => s
  | previous :: rest, s =>
      if s.indent > column then
        closeFrom column rest ({ s with indent := previous, outer := rest }.emit .blockEnd)
      else s

/-- Close the block collections right of a column, outside of brackets and braces. -/
def unroll (column : Int) (s : Lexer) : Lexer :=
  if s.inFlow then s else closeFrom column s.outer s

/-! ## Possible keys -/

/-- Give up the possible key of the current level. -/
def dropKey (s : Lexer) : Option Lexer :=
  match s.keys with
  | some key :: rest => if key.isRequired then none else some { s with keys := none :: rest }
  | _ => some s

/-- Keep the place of a node that can turn out to be a key. -/
def saveKey (s : Lexer) : Option Lexer :=
  if !s.allowsKey then some s
  else do
    let s ← s.dropKey
    let key : PossibleKey :=
      { isRequired := !s.inFlow && s.indent == (s.cursor.column : Int)
        position := s.count
        line := s.cursor.line
        column := s.cursor.column
        index := s.cursor.index }
    pure { s with keys := some key :: s.keys.drop 1 }

/-- Whether a possible key is on an earlier line or too far back. -/
def isStale (c : Cursor) (key : PossibleKey) : Bool :=
  key.line < c.line || key.index + 1024 < c.index

/-- A possible key, unless it is stale; a required one must not be. -/
def refreshKey (c : Cursor) (key : Option PossibleKey) : Option (Option PossibleKey) :=
  match key with
  | some key =>
      if isStale c key then if key.isRequired then none else some none
      else some (some key)
  | none => some none

/-- Give up the stale keys of all levels. -/
def refreshKeys (s : Lexer) : Option Lexer :=
  (s.keys.mapM (refreshKey s.cursor)).map fun keys => { s with keys }

/-! ## Blanks and comments -/

/-- Move past blanks, comments and line breaks. Outside of brackets a key may follow a line break,
and where a key may follow, tabs are no blanks. -/
def skipBlanks : Nat → Lexer → Lexer
  | 0, s => s
  | fuel + 1, s =>
      let c := (s.cursor.takeWhile fun char =>
        char == ' ' || ((s.inFlow || !s.allowsKey) && char == '\t')).2
      let c := if c.isAt '#' then c.skipToBreak else c
      if c.atBreak then
        skipBlanks fuel
          { s with cursor := c.skipOptionalBreak, allowsKey := s.allowsKey || !s.inFlow }
      else { s with cursor := c }

/-! ## Single tokens -/

/-- Move past a number of characters and add a token. -/
def mark (n : Nat) (token : Token) (s : Lexer) : Lexer :=
  { s with cursor := s.cursor.skip n }.emit token

/-- Read a mark between documents. -/
def documentMark (token : Token) (s : Lexer) : Option Lexer := do
  let s ← (s.unroll (-1)).dropKey
  pure ({ s with allowsKey := false }.mark 3 token)

/-- Open brackets or braces. -/
def openFlow (token : Token) (s : Lexer) : Option Lexer := do
  let s ← s.saveKey
  pure ({ s with keys := none :: s.keys, allowsKey := true }.mark 1 token)

/-- Close brackets or braces. -/
def closeFlow (token : Token) (s : Lexer) : Option Lexer := do
  let s ← s.dropKey
  let keys := if s.inFlow then s.keys.drop 1 else s.keys
  pure ({ s with keys, allowsKey := false }.mark 1 token)

/-- Read a comma between entries. -/
def flowEntry (s : Lexer) : Option Lexer := do
  let s ← s.dropKey
  pure ({ s with allowsKey := true }.mark 1 .flowEntry)

/-- Read the dash of an entry. -/
def blockEntry (s : Lexer) : Option Lexer := do
  if !s.inFlow && !s.allowsKey then none
  else
    let s := s.roll s.cursor.column s.count .blockSequenceStart
    let s ← s.dropKey
    pure ({ s with allowsKey := true }.mark 1 .blockEntry)

/-- Read the question mark of a key. -/
def explicitKey (s : Lexer) : Option Lexer := do
  if !s.inFlow && !s.allowsKey then none
  else
    let s := s.roll s.cursor.column s.count .blockMappingStart
    let s ← s.dropKey
    pure ({ s with allowsKey := !s.inFlow }.mark 1 .key)

/-- Read the colon of a value. The possible key of the level becomes one; without it, the colon
follows a key with a question mark. -/
def valueMark (s : Lexer) : Option Lexer :=
  match s.keys with
  | some key :: rest =>
      let s := s.emitAt key.position .key
      let s := s.roll key.column key.position .blockMappingStart
      some ({ s with keys := none :: rest, allowsKey := false }.mark 1 .value)
  | _ =>
      if !s.inFlow && !s.allowsKey then none
      else
        let s := s.roll s.cursor.column s.count .blockMappingStart
        some ({ s with allowsKey := !s.inFlow }.mark 1 .value)

/-! ## Anchors and tags -/

/-- Whether a name of an anchor ends before the characters. -/
def endsAnchor : List Char → Bool
  | [] => true
  | c :: _ => isSpacing c || isBreak c || "?:,]%@".toList.contains c || c == '\x7d' || c.toNat == 96

/-- Read the name of an anchor or an alias. -/
def readAnchorName (c : Cursor) : Option (String × Cursor) :=
  let (name, next) := c.takeWhile isNameChar
  if name.isEmpty || !endsAnchor next.rest then none else some (String.ofList name, next)

/-- Read an anchor or an alias. -/
def anchorOrAlias (token : String → Token) (s : Lexer) : Option Lexer := do
  let s ← s.saveKey
  let (name, cursor) ← readAnchorName (s.cursor.skip 1)
  pure ({ s with cursor, allowsKey := false }.emit (token name))

/-- Whether a character may occur in a tag; some only between angle brackets. -/
def isTagChar (isUri : Bool) (c : Char) : Bool :=
  isNameChar c || ";/?:@&=+$.%!~*'()".toList.contains c || (isUri && ",[]".toList.contains c)

/-- How many bytes follow the first one of a character. -/
def bytesAfter? (first : Nat) : Option Nat :=
  if first < 0x80 then some 0
  else if first < 0xC0 then none
  else if first < 0xE0 then some 1
  else if first < 0xF0 then some 2
  else if first < 0xF8 then some 3
  else none

/-- The bytes of the characters of a tag, some of which are written by the codes of their bytes. So
many more of these have to follow as `expected` says. -/
def decodeTag (expected : Nat) : List Char → Option (List UInt8)
  | [] => if expected = 0 then some [] else none
  | '%' :: a :: b :: rest => do
      let code ← Plain.natural? 16 [a, b]
      let more ←
        if expected = 0 then bytesAfter? code
        else if 0x80 ≤ code ∧ code < 0xC0 then some (expected - 1)
        else none
      let decoded ← decodeTag more rest
      return code.toUInt8 :: decoded
  | '%' :: _ => none
  | c :: rest => if expected = 0 then (decodeTag 0 rest).map (c.toNat.toUInt8 :: ·) else none

/-- Read the characters of a tag as bytes. -/
def readTagChars (isUri : Bool) (c : Cursor) : Option (List UInt8 × Cursor) :=
  let (chars, next) := c.takeWhile (isTagChar isUri)
  (decodeTag 0 chars).map fun bytes => (bytes, next)

/-- The bytes before the first that is zero, which ends a tag. -/
def beforeZero (bytes : List UInt8) : List UInt8 :=
  bytes.takeWhile (· != 0)

/-- Read a handle: an exclamation mark, or a name between two. -/
def readHandle (c : Cursor) : List Char × Cursor :=
  let (name, next) := (c.skip 1).takeWhile isNameChar
  if next.isAt '!' then ('!' :: name ++ ['!'], next.skip 1) else ('!' :: name, next)

/-- Read a tag: its handle and what follows it. -/
def readTag (c : Cursor) : Option (String × List UInt8 × Cursor) :=
  match c.rest with
  | '!' :: '<' :: _ => do
      let (uri, next) ← readTagChars true (c.skip 2)
      if uri.isEmpty || !next.isAt '>' then none
      else pure ("", beforeZero uri, next.skip 1)
  | _ => do
      let (handle, next) := readHandle c
      let (suffix, after) ← readTagChars false next
      if handle.length > 1 && handle.getLast? == some '!' then
        if suffix.isEmpty then none
        else pure (String.ofList handle, beforeZero suffix, after)
      else
        let suffix := beforeZero (textBytes (String.ofList (handle.drop 1)) ++ suffix)
        if suffix.isEmpty then pure ("", textBytes "!", after) else pure ("!", suffix, after)

/-- Read a tag. -/
def tagMark (s : Lexer) : Option Lexer := do
  let s ← s.saveKey
  let (handle, suffix, cursor) ← readTag s.cursor
  if cursor.atBlank || (s.inFlow && cursor.isAt ',') then
    pure ({ s with cursor, allowsKey := false }.emit (.tag handle suffix))
  else none

/-! ## Directives -/

/-- Read a decimal number of a version. -/
def readVersionNumber (c : Cursor) : Option (Nat × Cursor) := do
  let (digits, next) := c.takeWhile fun char => '0' ≤ char && char ≤ '9'
  if digits.length > 9 then none
  else
    let n ← Plain.natural? 10 digits
    pure (n, next)

/-- Read what follows the name of a directive. -/
def readDirectiveBody (name : List Char) (c : Cursor) : Option (Token × Cursor) := do
  let c := c.skipSpacing
  if name == "YAML".toList then
    let (major, c) ← readVersionNumber c
    if !c.isAt '.' then none
    else
      let (minor, c) ← readVersionNumber (c.skip 1)
      pure (.versionDirective major minor, c)
  else if name == "TAG".toList then
    if !c.isAt '!' then none
    else
      let (handle, c) := readHandle c
      if (handle != ['!'] && handle.getLast? != some '!') || !c.atSpacing then none
      else
        let (expansion, c) ← readTagChars true c.skipSpacing
        if expansion.isEmpty || !c.atBlank then none
        else pure (.tagDirective (String.ofList handle) (beforeZero expansion), c)
  else none

/-- Read a directive up to the end of its line. -/
def directive (s : Lexer) : Option Lexer := do
  let s ← (s.unroll (-1)).dropKey
  let (name, c) := (s.cursor.skip 1).takeWhile isNameChar
  if name.isEmpty || !c.atBlank then none
  else
    let (token, c) ← readDirectiveBody name c
    let c := c.skipSpacing
    let c := if c.isAt '#' then c.skipToBreak else c
    if startsBreak c.rest then
      pure ({ s with cursor := c.skipOptionalBreak, allowsKey := false }.emit token)
    else none

/-! ## Scalars -/

/-- Read a block of lines. -/
def blockScalar (isLiteral : Bool) (s : Lexer) : Option Lexer := do
  let s ← s.dropKey
  let (text, cursor) ← readBlock isLiteral s.indent s.cursor
  pure ({ s with cursor, allowsKey := true }.emit
    (.scalar (if isLiteral then .literal else .other) text))

/-- Read a quoted scalar. -/
def quotedScalar (quote : Char) (s : Lexer) : Option Lexer := do
  let s ← s.saveKey
  let (text, cursor) ← readQuoted quote s.cursor
  pure ({ s with cursor, allowsKey := false }.emit (.scalar .other text))

/-- Read a plain scalar; a key may follow it on a further line. -/
def plainScalar (s : Lexer) : Option Lexer := do
  let s ← s.saveKey
  let (text, hasBreak, cursor) ← readPlain s.inFlow (s.indent + 1) s.cursor
  pure ({ s with cursor, allowsKey := hasBreak }.emit (.scalar .plain text))

/-! ## All tokens -/

/-- The characters that no plain scalar starts with; dashes, question marks and colons may, if no
blank follows. -/
def isIndicator (c : Char) : Bool :=
  "-?:,[]#&*!|>'\"%@".toList.contains c || c == '\x7b' || c == '\x7d' || c.toNat == 96

/-- Whether a plain scalar starts with a character before others. -/
def startsPlain (inFlow : Bool) (c : Char) (rest : List Char) : Bool :=
  (!isIndicator c && !isSpacing c) ||
    (c == '-' && !(match rest with | d :: _ => isSpacing d | [] => false)) ||
    (!inFlow && (c == '?' || c == ':') && !startsBlank rest)

/-- Read the next token, which starts with `char` before others. -/
def step (char : Char) (rest : List Char) (s : Lexer) : Option Lexer :=
  let c := s.cursor
  if c.column == 0 && char == '%' then s.directive
  else if c.atDocumentMark '-' then s.documentMark .documentStart
  else if c.atDocumentMark '.' then s.documentMark .documentEnd
  else if char == '[' then s.openFlow .flowSequenceStart
  else if char == '\x7b' then s.openFlow .flowMappingStart
  else if char == ']' then s.closeFlow .flowSequenceEnd
  else if char == '\x7d' then s.closeFlow .flowMappingEnd
  else if char == ',' then s.flowEntry
  else if char == '-' && startsBlank rest then s.blockEntry
  else if char == '?' && (s.inFlow || startsBlank rest) then s.explicitKey
  else if char == ':' && (s.inFlow || startsBlank rest) then s.valueMark
  else if char == '*' then s.anchorOrAlias .alias
  else if char == '&' then s.anchorOrAlias .anchor
  else if char == '!' then s.tagMark
  else if char == '|' && !s.inFlow then s.blockScalar true
  else if char == '>' && !s.inFlow then s.blockScalar false
  else if char.toNat == 0x27 then s.quotedScalar char
  else if char == '"' then s.quotedScalar char
  else if startsPlain s.inFlow char rest then s.plainScalar
  else none

/-- Close everything at the end of the text. -/
def finish (s : Lexer) : Option (List Token) := do
  let c := s.cursor
  let cursor := if c.column == 0 then c else { c with column := 0, line := c.line + 1 }
  let s ← ({ s with cursor }.unroll (-1)).dropKey
  pure s.tokens.reverse

/-- Read all tokens. -/
def run : Nat → Lexer → Option (List Token)
  | 0, _ => none
  | fuel + 1, s => do
      let s := skipBlanks (s.cursor.rest.length + 1) s
      let s ← s.refreshKeys
      let s := s.unroll s.cursor.column
      match s.cursor.rest with
      | [] => s.finish
      | char :: rest =>
          let s ← s.step char rest
          run fuel s

end Lexer

/-- Cut a text into tokens. -/
def tokens? (text : String) : Option (List Token) :=
  let chars :=
    match text.toList with
    | c :: rest => if c.toNat == 0xFEFF then rest else c :: rest
    | [] => []
  if chars.all isAllowed then Lexer.run (chars.length + 2) { cursor := { rest := chars } } else none

end AnnotatedApi.Yaml
