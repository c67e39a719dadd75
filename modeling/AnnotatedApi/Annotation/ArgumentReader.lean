import AnnotatedApi.Annotation.Argument
import AnnotatedApi.Source.Token
import AnnotatedApi.Text.Blank

/-! # Reading arguments from tokens

Arguments are separated by commas, and a comma may end the list. A positional argument is a literal,
a signed literal or an array; a named one is a bare name, a name with `=` and a value, or a name
with nested arguments in parentheses. Since a comma within an argument only occurs inside a group,
the tokens are first cut at their commas. -/

namespace AnnotatedApi.Source

namespace Token

mutual

/-- How deep groups nest in a token tree. -/
def depth : Token → Nat
  | .group _ tokens => depthOfList tokens + 1
  | _ => 0

/-- How deep groups nest in a list of token trees. -/
def depthOfList : List Token → Nat
  | [] => 0
  | token :: rest => max token.depth (depthOfList rest)

end

/-- Whether the token is the given sign. -/
def isSign (char : Char) : Token → Bool
  | .sign c _ => c == char
  | _ => false

end Token

/-! ## Literals -/

/-- Read a literal: a token, one of the two words, or a number with a minus sign. -/
def readLiteralToken : List Token → Option (Literal × List Token)
  | .literal l :: rest => some (l, rest)
  | .name "true" :: rest => some (⟨.bool true, "", []⟩, rest)
  | .name "false" :: rest => some (⟨.bool false, "", []⟩, rest)
  | .sign '-' _ :: .literal l :: rest =>
      match l.value with
      | .integer value => some (⟨.integer (-value), l.suffix, l.written⟩, rest)
      | .real negative digits exponent =>
          some (⟨.real (!negative) digits exponent, l.suffix, l.written⟩, rest)
      | _ => none
  | _ => none

/-- Whether a literal starts here. -/
def startsLiteral (tokens : List Token) : Bool :=
  (readLiteralToken tokens).isSome

/-- The negation of an integer of 64 bits with a sign, if it is one. The least of them is its own
negation. -/
def negated64? (value : Int) : Option Int :=
  if value = -0x8000000000000000 then some value
  else if -0x8000000000000000 < value ∧ value < 0x8000000000000000 then some (-value)
  else none

/-- The value of a literal, with another minus sign in front when `negated`. Only numbers can be
negated, and a negated integer must fit 64 bits with a sign. -/
def literalArg (l : Literal) (negated : Bool) : Except ArgSyntaxError ArgValue :=
  match l.value with
  | .text value => if negated then .error .unsupportedLiteral else .ok (.text value)
  | .char value =>
      if negated then .error .unsupportedLiteral else .ok (.text (String.singleton value))
  | .bool value => if negated then .error .unsupportedLiteral else .ok (.bool value)
  | .integer value =>
      if negated then
        match negated64? value with
        | some opposite => .ok (.number (.int opposite))
        | none => .error .malformed
      else if Number.inRange value then .ok (.number (.int value))
      else .error .malformed
  | .real negative digits exponent =>
      match Binary64.ofDecimal? (negative != negated) digits exponent with
      | some x => .ok (.number (.real x))
      | none => .error .notFinite
  | .other => .error .unsupportedLiteral

/-! ## Paths -/

/-- The words other than plain names that may be segments of a path. -/
def pathKeywords : List String := ["super", "self", "Self", "crate"]

/-- Whether a word may be a segment of a path. -/
def isPathWord (word : String) : Bool :=
  !isKeyword word || pathKeywords.contains word

/-- Read the segments of a path after its first one; `done` holds the segments in reverse. -/
def readPathRest (done : List String) : List Token → Option (List String × List Token)
  | .sign ':' true :: .sign ':' _ :: .name word :: rest =>
      if isPathWord word then readPathRest (word :: done) rest else none
  | .sign ':' true :: .sign ':' _ :: _ => none
  | rest => some (done.reverse, rest)

/-- Read a path of plain segments. -/
def readPlainPath : List Token → Option (List String × List Token)
  | .name word :: rest => if isPathWord word then readPathRest [word] rest else none
  | _ => none

/-! ## Cutting at commas -/

/-- An argument's tokens and whether a comma follows. -/
abbrev Piece : Type := List Token × Bool

/-- Cut tokens at their commas; nothing after the last comma makes no piece. `done` holds the tokens
of the current piece in reverse. -/
def cutAtCommas (done : List Token) : List Token → List Piece
  | [] => if done.isEmpty then [] else [(done.reverse, false)]
  | token :: rest =>
      if token.isSign ',' then (done.reverse, true) :: cutAtCommas [] rest
      else cutAtCommas (token :: done) rest

/-! ## Values and arguments -/

/-- A value that is no array, and what follows it. `followed` tells whether a comma follows the
tokens. -/
def readScalar (tokens : List Token) (followed : Bool) :
    Except ArgSyntaxError (ArgValue × List Token) :=
  match tokens with
  | .sign '-' _ :: rest =>
      match readLiteralToken rest with
      | some (l, after) => (literalArg l true).map (·, after)
      | none => .error .malformed
  | _ =>
      match readLiteralToken tokens with
      | some (l, after) => (literalArg l false).map (·, after)
      | none =>
          match tokens with
          | .name _ :: _ =>
              match readPlainPath tokens with
              | some (segments, after) => .ok (.path (Text.joinPath segments), after)
              | none => .error .malformed
          | _ => .error (.noValue (tokens.isEmpty && !followed))

/-- Refuse what follows an argument. -/
def noRest (result : Except ArgSyntaxError (α × List Token)) : Except ArgSyntaxError α := do
  let (value, rest) ← result
  if rest.isEmpty then pure value else .error .malformed

/-- Whether a positional argument starts here. -/
def startsPositional (tokens : List Token) : Bool :=
  startsLiteral tokens ||
    match tokens with
    | .sign '-' _ :: _ => true
    | .group .bracket _ :: _ => true
    | _ => false

mutual

/-- Read a value from the front of tokens whose groups nest at most as deep as the first argument
says. -/
def readValue : Nat → Piece → Except ArgSyntaxError (ArgValue × List Token)
  | depth + 1, (.group .bracket tokens :: rest, _) => do
      let items ← readItems depth (cutAtCommas [] tokens)
      pure (.array items, rest)
  | _, (tokens, followed) => readScalar tokens followed

/-- Read the items of an array. -/
def readItems : Nat → List Piece → Except ArgSyntaxError (List ArgValue)
  | _, [] => .ok []
  | depth, piece :: rest => do
      let item ← noRest (readValue depth piece)
      let items ← readItems depth rest
      pure (item :: items)

/-- Read one argument. -/
def readArg : Nat → Piece → Except ArgSyntaxError Arg
  | depth, (tokens, followed) =>
      if startsPositional tokens then do
        let value ← noRest (readValue depth (tokens, followed))
        pure ("", value)
      else
        match depth, tokens with
        | _, [.name word] => .ok (unraw word, .flag)
        | depth, .name word :: .sign '=' _ :: rest => do
            let value ← noRest (readValue depth (rest, followed))
            pure (unraw word, value)
        | depth + 1, .name word :: .group .paren inner :: rest => do
            let args ← readArgPieces depth (cutAtCommas [] inner)
            if rest.isEmpty then pure (unraw word, .list args) else .error .malformed
        | _, _ => .error .malformed

/-- Read arguments one after the other. -/
def readArgPieces : Nat → List Piece → Except ArgSyntaxError (List Arg)
  | _, [] => .ok []
  | depth, piece :: rest => do
      let arg ← readArg depth piece
      let args ← readArgPieces depth rest
      pure (arg :: args)

end

/-- Read the arguments that tokens spell. -/
def readArgs (tokens : List Token) : Except ArgSyntaxError (List Arg) :=
  readArgPieces (Token.depthOfList tokens) (cutAtCommas [] tokens)

end AnnotatedApi.Source
