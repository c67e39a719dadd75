import AnnotatedApi.Source.Syntax
import AnnotatedApi.Annotation.ArgumentReader

/-! # Parsers of token lists

A parser takes tokens from the front of a list and returns a value, or fails. This module has the
tests for what comes next, the parsers for single tokens and groups, and lists of things with
separators. The grammar itself is recursive; its entry points are the fields of `Grammar`, a record
that each parser receives and calls for whatever nests inside what it reads. -/

namespace AnnotatedApi.Source

/-- A parser of tokens. -/
abbrev Parse : Type → Type := StateT (List Token) Option

/-! ## What comes next -/

/-- Whether the tokens start with the given signs, each but the last joined to the next. -/
def startsSigns : List Char → List Token → Bool
  | [], _ => true
  | [c], .sign d _ :: _ => c == d
  | c :: rest, .sign d true :: tokens => c == d && startsSigns rest tokens
  | _, _ => false

/-- Whether the tokens start with the given sign or signs. -/
def atSign (signs : String) (tokens : List Token) : Bool :=
  startsSigns signs.toList tokens

/-- Whether the tokens start with the given word. -/
def atWord (word : String) : List Token → Bool
  | .name w :: _ => w == word
  | _ => false

/-- Whether the tokens start with one of the given words. -/
def atWords (words : List String) : List Token → Bool
  | .name w :: _ => words.contains w
  | _ => false

/-- Whether the tokens start with a name that is no keyword. -/
def atName : List Token → Bool
  | .name w :: _ => !isKeyword w
  | _ => false

/-- Whether the tokens start with a name or keyword. -/
def atAnyName : List Token → Bool
  | .name _ :: _ => true
  | _ => false

/-- Whether the tokens start with a lifetime. -/
def atLifetime : List Token → Bool
  | .lifetime _ :: _ => true
  | _ => false

/-- Whether the tokens start with a group. -/
def atGroup (delimiter : Delimiter) : List Token → Bool
  | .group d _ :: _ => d == delimiter
  | _ => false

/-- Whether the tokens start with a group of any kind. -/
def atAnyGroup : List Token → Bool
  | .group _ _ :: _ => true
  | _ => false

/-- Whether the tokens start with a string literal. -/
def atText : List Token → Bool
  | .literal l :: _ => l.asText?.isSome
  | _ => false

/-- Whether a test holds once one token is dropped. -/
def second (test : List Token → Bool) (tokens : List Token) : Bool :=
  test (tokens.drop 1)

/-- Whether a test holds once two tokens are dropped. -/
def third (test : List Token → Bool) (tokens : List Token) : Bool :=
  test (tokens.drop 2)

/-- Whether a single dot comes next and no range. -/
def atDot (tokens : List Token) : Bool :=
  atSign "." tokens && !atSign ".." tokens

/-- Whether a single colon comes next and no pair. -/
def atColon (tokens : List Token) : Bool :=
  atSign ":" tokens && !atSign "::" tokens

/-- Whether one of the words that start a path comes next, plain names apart. -/
def atPathKeyword (tokens : List Token) : Bool :=
  atWords ["self", "Self", "super", "crate"] tokens

/-! ## Single tokens -/

/-- Go on only if a test holds of what comes next. -/
def expect (test : List Token → Bool) : Parse Unit := do
  if test (← get) then return () else failure

/-- Skip a number of tokens. -/
def skip (n : Nat) : Parse Unit := modify (·.drop n)

/-- Take the given sign or signs. -/
def sign (signs : String) : Parse Unit := do
  expect (atSign signs)
  skip signs.length

/-- Take the given sign or signs if they come next. -/
def sign? (signs : String) : Parse Bool := do
  if atSign signs (← get) then skip signs.length; return true else return false

/-- Take the given word. -/
def word (text : String) : Parse Unit := do
  expect (atWord text)
  skip 1

/-- Take the given word if it comes next. -/
def word? (text : String) : Parse Bool := do
  if atWord text (← get) then skip 1; return true else return false

/-- Take a name that is no keyword. -/
def name : Parse String := do
  match ← get with
  | .name w :: rest => if isKeyword w then failure else set rest; return w
  | _ => failure

/-- Take a name or keyword. -/
def anyName : Parse String := do
  match ← get with
  | .name w :: rest => set rest; return w
  | _ => failure

/-- Take a lifetime. -/
def lifetime : Parse Unit := do
  expect atLifetime
  skip 1

/-- Take a lifetime if one comes next. -/
def lifetime? : Parse Bool := do
  if atLifetime (← get) then skip 1; return true else return false

/-- Take a literal, with its sign if it is a number. -/
def literal : Parse Literal := do
  match readLiteralToken (← get) with
  | some (l, rest) => set rest; return l
  | none => failure

/-- Take a group of any kind; tells whether it has braces. -/
def anyGroup : Parse Bool := do
  match ← get with
  | .group d _ :: rest => set rest; return d == .brace
  | _ => failure

/-- Take the tokens of a group of any kind. -/
def groupTokens : Parse (List Token) := do
  match ← get with
  | .group _ tokens :: rest => set rest; return tokens
  | _ => failure

/-- Take a group whose tokens a parser reads to the end. -/
def inside (delimiter : Delimiter) (parser : Parse α) : Parse α := do
  match ← get with
  | .group d tokens :: rest =>
      if d = delimiter then
        match parser.run tokens with
        | some (value, []) => set rest; return value
        | _ => failure
      else failure
  | _ => failure

/-! ## Lists -/

/-- Read things until a test holds, at most `fuel` of them. -/
def untilFrom (stop : List Token → Bool) (parser : Parse α) : Nat → Parse (List α)
  | 0 => failure
  | fuel + 1 => do
      if stop (← get) then return []
      else
        let first ← parser
        let rest ← untilFrom stop parser fuel
        return first :: rest

/-- Read things until a test holds. -/
def readUntil (stop : List Token → Bool) (parser : Parse α) : Parse (List α) := do
  untilFrom stop parser ((← get).length + 1)

/-- Read things up to the end of the tokens. -/
def toEnd (parser : Parse α) : Parse (List α) :=
  readUntil List.isEmpty parser

/-- Read things with separators between them and possibly after the last one, until a test holds. -/
def separatedFrom (stop : List Token → Bool) (separator : String) (parser : Parse α) :
    Nat → Parse (List α)
  | 0 => failure
  | fuel + 1 => do
      if stop (← get) then return []
      else
        let first ← parser
        if stop (← get) then return [first]
        else
          sign separator
          let rest ← separatedFrom stop separator parser fuel
          return first :: rest

/-- Read things with separators between them and possibly after the last one, until a test holds. -/
def separated (stop : List Token → Bool) (separator : String) (parser : Parse α) :
    Parse (List α) := do
  separatedFrom stop separator parser ((← get).length + 1)

/-- Read things with commas between them, up to the end of the tokens. -/
def commaList (parser : Parse α) : Parse (List α) :=
  separated List.isEmpty "," parser

/-- Read bounds with plus signs between them: before each one `stop` ends the list, and it ends
after one that no plus sign follows. -/
def boundListFrom (stop : List Token → Bool) (parser : Parse α) : Nat → Parse (List α)
  | 0 => failure
  | fuel + 1 => do
      if stop (← get) then return []
      else
        let first ← parser
        if ← sign? "+" then
          let rest ← boundListFrom stop parser fuel
          return first :: rest
        else return [first]

/-- Read bounds with plus signs between them. -/
def boundList (stop : List Token → Bool) (parser : Parse α) : Parse (List α) := do
  boundListFrom stop parser ((← get).length + 1)

/-! ## The entry points of the grammar -/

/-- What reading a pattern yields: the name it binds if it is a plain one, whether it is a range
without one of its ends, whether it is kept as mere text, the parts of its attributes, and those
within it. -/
structure Pattern where
  bound : Option String := none
  isOpenRange : Bool := false
  isTextOnly : Bool := false
  attrs : List Part := []
  inner : List Part := []

/-- The parts of a pattern with those of its attributes. -/
def Pattern.parts (pattern : Pattern) : List Part :=
  pattern.attrs ++ pattern.inner

/-- What reading a block yields: the parts of the attributes at its beginning, and those of its
statements. -/
structure Block where
  attrs : List Part
  statements : List Part

/-- The parts of a block. -/
def Block.parts (block : Block) : List Part :=
  block.attrs ++ block.statements

/-- The parsers for what nests. Expressions are read with or without struct literals, types with or
without further bounds. A statement's expression is one that a block-like beginning may end. Blocks
are read with or without attributes at their beginning. The trees of imports are read with or
without colons in front of the names in braces; whether there are none is told. -/
structure Grammar where
  expr : Bool → Parse Expr
  unary : Bool → Parse Expr
  statementExpr : Parse Expr
  type : Bool → Parse TypeExpr
  pattern : Parse Pattern
  block : Bool → Parse Block
  item : Parse Item
  useTree : Bool → Parse Bool

/-- The grammar that reads nothing. -/
def Grammar.empty : Grammar where
  expr _ := failure
  unary _ := failure
  statementExpr := failure
  type _ := failure
  pattern := failure
  block _ := failure
  item := failure
  useTree _ := failure

end AnnotatedApi.Source
