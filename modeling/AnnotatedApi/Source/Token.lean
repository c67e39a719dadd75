import AnnotatedApi.Number.Binary64

/-! # Tokens of Rust source

Source text is first cut into lexemes, and the lexemes between matching delimiters are gathered into
token trees. Comments and white space leave no trace, except that a documentation comment stands for
an attribute. -/

namespace AnnotatedApi.Source

/-! ## Literals -/

/-- What a literal denotes, as far as this library can tell literals apart. -/
inductive LiteralValue where
  /-- A string, cooked or raw. -/
  | text (value : String)
  /-- A single character. -/
  | char (value : Char)
  /-- An integer; negative only where a sign was read together with it. -/
  | integer (value : Int)
  /-- The number `digits · 10^exponent`, written with a point or an exponent. -/
  | real (negative : Bool) (digits : Nat) (exponent : Int)
  /-- One of the words `true` and `false`. -/
  | bool (value : Bool)
  /-- A byte, a string of bytes or a string for other languages. -/
  | other
  deriving Repr

/-- A literal with its value and the type suffix it was written with. -/
structure Literal where
  value : LiteralValue
  suffix : String
  /-- The characters it was written with, its sign apart. -/
  written : List Char
  deriving Repr

/-- The text that a string literal denotes. -/
def Literal.asText? (l : Literal) : Option String :=
  match l.value with
  | .text value => some value
  | _ => none

/-! ## Lexemes and token trees -/

/-- The kinds of delimiters. -/
inductive Delimiter where
  | paren
  | bracket
  | brace
  deriving DecidableEq, Repr

/-- A piece of source text. A name is held as written, with the mark of a raw one; a sign is `joint`
when another sign follows it directly. -/
inductive Lexeme where
  | name (text : String)
  | lifetime (name : String)
  | literal (value : Literal)
  | sign (char : Char) (joint : Bool)
  | opening (delimiter : Delimiter)
  | closing (delimiter : Delimiter)
  deriving Repr

/-- A token tree: a single lexeme or the tokens between a pair of delimiters. -/
inductive Token where
  | name (text : String)
  | lifetime (name : String)
  | literal (value : Literal)
  | sign (char : Char) (joint : Bool)
  | group (delimiter : Delimiter) (tokens : List Token)
  deriving Repr, Inhabited

namespace Token

mutual

/-- The number of lexemes of a token tree, a pair of delimiters counting as one. -/
def weight : Token → Nat
  | .group _ tokens => weightOfList tokens + 1
  | _ => 1

/-- The number of lexemes of a list of token trees. -/
def weightOfList : List Token → Nat
  | [] => 0
  | token :: rest => token.weight + weightOfList rest

end

/-- Gather lexemes into token trees. `outer` holds the opened groups around the current one, each
with its delimiter and the tokens before it in reverse; `done` holds the current tokens in
reverse. -/
def gather (outer : List (Delimiter × List Token)) (done : List Token) :
    List Lexeme → Option (List Token)
  | [] => if outer.isEmpty then some done.reverse else none
  | .opening delimiter :: rest => gather ((delimiter, done) :: outer) [] rest
  | .closing delimiter :: rest =>
      match outer with
      | [] => none
      | (opened, before) :: outer =>
          if opened = delimiter then gather outer (.group delimiter done.reverse :: before) rest
          else none
  | .name word :: rest => gather outer (.name word :: done) rest
  | .lifetime word :: rest => gather outer (.lifetime word :: done) rest
  | .literal value :: rest => gather outer (.literal value :: done) rest
  | .sign char joint :: rest => gather outer (.sign char joint :: done) rest

end Token

/-! ## Names -/

/-- The words that are no names, unless they are written as raw names. -/
def keywords : List String :=
  ["_", "abstract", "as", "async", "await", "become", "box", "break", "const", "continue", "crate",
   "do", "dyn", "else", "enum", "extern", "false", "final", "fn", "for", "if", "impl", "in", "let",
   "loop", "macro", "match", "mod", "move", "mut", "override", "priv", "pub", "ref", "return",
   "Self", "self", "static", "struct", "super", "trait", "true", "try", "type", "typeof", "unsafe",
   "unsized", "use", "virtual", "where", "while", "yield"]

/-- Whether a word is a keyword. -/
def isKeyword (word : String) : Bool :=
  keywords.contains word

/-- A name without the mark of a raw name. -/
def unraw (name : String) : String :=
  match name.toList with
  | 'r' :: '#' :: rest => String.ofList rest
  | _ => name

end AnnotatedApi.Source
