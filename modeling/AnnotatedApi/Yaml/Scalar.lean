import AnnotatedApi.Yaml.Cursor
import AnnotatedApi.Datum.Plain

/-! # Scalars of YAML texts

A scalar is plain, in single or double quotes, or a block of lines. Within a scalar that goes on
over several lines a single line break counts as a blank, and of more breaks the first is dropped. -/

namespace AnnotatedApi.Yaml

/-! ## Blanks between words -/

/-- The blanks since the last word of a scalar. -/
structure Gap where
  /-- The blanks, as long as no line has ended. -/
  blanks : List Char := []
  /-- Whether a line has ended. -/
  hasBreak : Bool := false
  /-- The end of the first line. -/
  firstBreak : List Char := []
  /-- The ends of further lines. -/
  moreBreaks : List Char := []

/-- What a gap stands for before the next word. -/
def Gap.folded (gap : Gap) : List Char :=
  if gap.hasBreak then
    if gap.firstBreak.head? == some '\n' then
      if gap.moreBreaks.isEmpty then [' '] else gap.moreBreaks
    else gap.firstBreak ++ gap.moreBreaks
  else gap.blanks

/-- Read the blanks and line breaks before the next word, continuing a gap. With `indent`, a tab
before that column of a further line is an error. -/
def readGap (indent : Option Int) : Nat → Gap → Cursor → Option (Gap × Cursor)
  | 0, gap, c => some (gap, c)
  | fuel + 1, gap, c =>
      if c.atSpacing then
        let tooEarly :=
          match indent with
          | some column => gap.hasBreak && decide ((c.column : Int) < column) && c.isAt '\t'
          | none => false
        if tooEarly then none
        else if gap.hasBreak then readGap indent fuel gap (c.skip 1)
        else readGap indent fuel { gap with blanks := gap.blanks ++ c.rest.take 1 } (c.skip 1)
      else if c.atBreak then
        let (lineEnd, next) := c.skipBreak
        if gap.hasBreak then
          readGap indent fuel { gap with moreBreaks := gap.moreBreaks ++ lineEnd } next
        else
          readGap indent fuel { gap with blanks := [], hasBreak := true, firstBreak := lineEnd } next
      else some (gap, c)

/-! ## Plain scalars -/

/-- The characters that structure a collection between brackets or braces. -/
def isFlowMark (c : Char) : Bool :=
  c == ',' || c == '[' || c == ']' || c == '\x7b' || c == '\x7d'

/-- Whether a plain scalar ends before the characters. -/
def endsPlain (inFlow : Bool) : List Char → Bool
  | ':' :: rest => startsBlank rest
  | c :: _ => inFlow && isFlowMark c
  | [] => true

/-- Whether a colon stands directly before a mark, which is an error between brackets or braces. -/
def isStrayColon : List Char → Bool
  | ':' :: c :: _ => isFlowMark c || c == '?'
  | _ => false

/-- Read a word of a plain scalar; `done` holds its characters so far in reverse. -/
def readPlainWord (inFlow : Bool) (done : List Char) : List Char → Option (List Char)
  | [] => some done.reverse
  | c :: rest =>
      if startsBlank (c :: rest) then some done.reverse
      else if inFlow && isStrayColon (c :: rest) then none
      else if endsPlain inFlow (c :: rest) then some done.reverse
      else readPlainWord inFlow (c :: done) rest

/-- Read the words of a plain scalar, given those before and the gap after them. Lines that go on
have to start at the column `indent` or later. Tells whether the last gap holds a line break. -/
def readPlainFrom (inFlow : Bool) (indent : Int) :
    Nat → List Char → Gap → Cursor → Option (List Char × Bool × Cursor)
  | 0, _, _, _ => none
  | fuel + 1, done, gap, c =>
      if c.atAnyDocumentMark || c.isAt '#' then some (done, gap.hasBreak, c)
      else do
        let word ← readPlainWord inFlow [] c.rest
        if word.isEmpty then some (done, gap.hasBreak, c)
        else
          let done := done ++ gap.folded ++ word
          let c := c.skip word.length
          if c.atSpacing || c.atBreak then
            let (gap, c) ← readGap (some indent) (c.rest.length + 1) {} c
            if !inFlow && decide ((c.column : Int) < indent) then some (done, gap.hasBreak, c)
            else readPlainFrom inFlow indent fuel done gap c
          else some (done, false, c)

/-- Read a plain scalar. -/
def readPlain (inFlow : Bool) (indent : Int) (c : Cursor) : Option (String × Bool × Cursor) :=
  (readPlainFrom inFlow indent (c.rest.length + 1) [] {} c).map fun (chars, hasBreak, c) =>
    (String.ofList chars, hasBreak, c)

/-! ## Quoted scalars -/

/-- The character of a code, unless it is half of a pair or too large. -/
def charOfCode? (code : Nat) : Option Char :=
  if (0xD800 ≤ code && code ≤ 0xDFFF) || 0x10FFFF < code then none else some (Char.ofNat code)

/-- Read the code of a character from a number of hexadecimal digits. -/
def readCode (digits : Nat) (c : Cursor) : Option (Char × Cursor) := do
  let taken := c.rest.take digits
  if taken.length < digits then none
  else
    let code ← Plain.natural? 16 taken
    let char ← charOfCode? code
    pure (char, c.skip digits)

/-- Read what follows a backslash within double quotes. -/
def readEscape (c : Cursor) : Option (Char × Cursor) :=
  match c.rest with
  | [] => none
  | mark :: _ =>
      let next := c.skip 1
      match mark with
      | '0' => some (Char.ofNat 0, next)
      | 'a' => some (Char.ofNat 7, next)
      | 'b' => some (Char.ofNat 8, next)
      | 't' => some ('\t', next)
      | '\t' => some ('\t', next)
      | 'n' => some ('\n', next)
      | 'v' => some (Char.ofNat 11, next)
      | 'f' => some (Char.ofNat 12, next)
      | 'r' => some ('\r', next)
      | 'e' => some (Char.ofNat 27, next)
      | ' ' => some (' ', next)
      | '"' => some ('"', next)
      | '/' => some ('/', next)
      | '\\' => some ('\\', next)
      | 'N' => some (Char.ofNat 0x85, next)
      | '_' => some (Char.ofNat 0xA0, next)
      | 'L' => some (Char.ofNat 0x2028, next)
      | 'P' => some (Char.ofNat 0x2029, next)
      | 'x' => readCode 2 next
      | 'u' => readCode 4 next
      | 'U' => readCode 8 next
      | _ => none

/-- A word between quotes, and whether a backslash before a line break ended it. -/
structure QuotedWord where
  chars : List Char
  brokeLine : Bool
  cursor : Cursor

/-- Read a word between quotes; `done` holds its characters so far in reverse. -/
def readQuotedWord (isSingle : Bool) (quote : Char) :
    Nat → List Char → Cursor → Option QuotedWord
  | 0, _, _ => none
  | fuel + 1, done, c =>
      if c.atBlank then some ⟨done.reverse, false, c⟩
      else
        match c.rest with
        | [] => none
        | char :: rest =>
            if isSingle && char == quote && rest.head? == some quote then
              readQuotedWord isSingle quote fuel (quote :: done) (c.skip 2)
            else if char == quote then some ⟨done.reverse, false, c⟩
            else if !isSingle && char == '\\' then
              if !rest.isEmpty && startsBreak rest then
                some ⟨done.reverse, true, (c.skip 1).skipOptionalBreak⟩
              else
                match readEscape (c.skip 1) with
                | some (escaped, c) => readQuotedWord isSingle quote fuel (escaped :: done) c
                | none => none
            else readQuotedWord isSingle quote fuel (char :: done) (c.skip 1)

/-- Read words between quotes up to the closing quote; `done` holds the characters so far. -/
def readQuotedFrom (isSingle : Bool) (quote : Char) :
    Nat → List Char → Cursor → Option (List Char × Cursor)
  | 0, _, _ => none
  | fuel + 1, done, c =>
      if c.atAnyDocumentMark || c.atEnd then none
      else do
        let word ← readQuotedWord isSingle quote (c.rest.length + 1) [] c
        let done := done ++ word.chars
        let c := word.cursor
        if !word.brokeLine && c.isAt quote then some (done, c.skip 1)
        else
          let (gap, c) ← readGap none (c.rest.length + 1) { hasBreak := word.brokeLine } c
          readQuotedFrom isSingle quote fuel (done ++ gap.folded) c

/-- Read a quoted scalar from its opening quote on. -/
def readQuoted (quote : Char) (c : Cursor) : Option (String × Cursor) :=
  (readQuotedFrom (quote != '"') quote (c.rest.length + 1) [] (c.skip 1)).map fun (chars, c) =>
    (String.ofList chars, c)

/-! ## Blocks of lines -/

/-- What becomes of the line breaks at the end of a block. -/
inductive Chomping where
  | strip
  | clip
  | keep
  deriving DecidableEq, Repr

/-- The header of a block: how it ends, and how far it is indented if that is said. -/
structure BlockHeader where
  chomping : Chomping := .clip
  increment : Option Nat := none

/-- Read a sign that says how a block ends. -/
def readChomping (c : Cursor) : Option (Chomping × Cursor) :=
  if c.isAt '+' then some (.keep, c.skip 1)
  else if c.isAt '-' then some (.strip, c.skip 1)
  else none

/-- Read a digit that says how far a block is indented; a zero is an error. -/
def readIncrement (c : Cursor) : Option (Option Nat × Cursor) :=
  match c.rest with
  | char :: _ =>
      if '0' ≤ char && char ≤ '9' then
        if char == '0' then none else some (some (char.toNat - '0'.toNat), c.skip 1)
      else some (none, c)
  | [] => some (none, c)

/-- Read the header of a block up to the end of its line. -/
def readBlockHeader (c : Cursor) : Option (BlockHeader × Cursor) := do
  let (header, c) ←
    match readChomping c with
    | some (chomping, c) => do
        let (increment, c) ← readIncrement c
        pure (({ chomping, increment } : BlockHeader), c)
    | none => do
        let (increment, c) ← readIncrement c
        match increment, readChomping c with
        | some n, some (chomping, c) => pure ({ chomping, increment := some n }, c)
        | _, _ => pure ({ increment := increment }, c)
  let c := c.skipSpacing
  let c := if c.isAt '#' then c.skipToBreak else c
  if startsBreak c.rest then pure (header, c.skipOptionalBreak) else none

/-- Read empty lines before a line of a block, and the blanks up to its column; where no column is
given, all blanks. Yields the line breaks and the greatest column that was reached. -/
def readEmptyLines (indent : Option Nat) :
    Nat → List Char → Nat → Cursor → Option (List Char × Nat × Cursor)
  | 0, breaks, reached, c => some (breaks, reached, c)
  | fuel + 1, breaks, reached, c =>
      let spaces := c.rest.takeWhile (· == ' ')
      let width :=
        match indent with
        | some column => min spaces.length (column - c.column)
        | none => spaces.length
      let c := c.skip width
      let reached := max reached c.column
      let isBefore :=
        match indent with
        | some column => decide (c.column < column)
        | none => true
      if isBefore && c.isAt '\t' then none
      else if c.atBreak then
        let (lineEnd, c) := c.skipBreak
        readEmptyLines indent fuel (breaks ++ lineEnd) reached c
      else some (breaks, reached, c)

/-- What has been read of a block: its characters, the end of the last line, the empty lines after
it, and whether that line started with a blank. -/
structure BlockText where
  chars : List Char := []
  lineEnd : List Char := []
  emptyLines : List Char := []
  startedBlank : Bool := false

/-- The characters of a block before its next line, which starts with a blank or not. -/
def BlockText.joined (isLiteral : Bool) (text : BlockText) (startsBlank : Bool) : List Char :=
  if !isLiteral && text.lineEnd.head? == some '\n' && !text.startedBlank && !startsBlank then
    text.chars ++ (if text.emptyLines.isEmpty then [' '] else []) ++ text.emptyLines
  else text.chars ++ text.lineEnd ++ text.emptyLines

/-- Read the lines of a block that start at a column. -/
def readBlockLines (isLiteral : Bool) (indent : Nat) :
    Nat → BlockText → Cursor → Option (BlockText × Cursor)
  | 0, _, _ => none
  | fuel + 1, text, c =>
      if c.column != indent || c.atEnd then some (text, c)
      else do
        let startedBlank := c.atSpacing
        let before := text.joined isLiteral startedBlank
        let (line, c) := c.takeWhile fun char => !isBreak char
        let (lineEnd, c) := c.skipBreak
        let (emptyLines, _, c) ← readEmptyLines (some indent) (c.rest.length + 1) [] 0 c
        readBlockLines isLiteral indent fuel
          { chars := before ++ line, lineEnd, emptyLines, startedBlank } c

/-- The text of a block with its end. -/
def BlockText.chomped (text : BlockText) : Chomping → List Char
  | .strip => text.chars
  | .clip => text.chars ++ text.lineEnd
  | .keep => text.chars ++ text.lineEnd ++ text.emptyLines

/-- Read a block of lines from its mark on, within a block at the column `parent`. -/
def readBlock (isLiteral : Bool) (parent : Int) (c : Cursor) : Option (String × Cursor) := do
  let (header, c) ← readBlockHeader (c.skip 1)
  let given := header.increment.map fun n => (if 0 ≤ parent then parent.toNat else 0) + n
  let (emptyLines, reached, c) ← readEmptyLines given (c.rest.length + 1) [] 0 c
  let indent := given.getD (max (max reached (parent + 1).toNat) 1)
  let (text, c) ← readBlockLines isLiteral indent (c.rest.length + 2) { emptyLines := emptyLines } c
  pure (String.ofList (text.chomped header.chomping), c)

end AnnotatedApi.Yaml
