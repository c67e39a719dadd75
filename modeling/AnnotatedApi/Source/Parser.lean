import AnnotatedApi.Source.Grammar.Item
import AnnotatedApi.Source.Lexer

/-! # Reading source files

The grammar ties its entry points together level by level: what nests inside something is read by
the grammar of the level below. A text has fewer levels than twice its tokens, so the level computed
from the number of tokens is never reached. -/

namespace AnnotatedApi.Source

/-- The grammar for texts that nest at most as many levels as the argument says. -/
def Grammar.level : Nat → Grammar
  | 0 => .empty
  | n + 1 =>
      let inner := Grammar.level n
      { expr := exprBody inner
        unary := unaryBody inner
        statementExpr := statementExprBody inner
        type := typeBody inner
        pattern := patternBody inner
        block := plainBlock inner
        item := itemBody inner
        useTree := useTreeBody inner }

/-- The grammar for a list of tokens. -/
def Grammar.forTokens (tokens : List Token) : Grammar :=
  .level (2 * Token.weightOfList tokens + 8)

/-- Run a parser on all of a list of tokens. -/
def parseAll (parser : Grammar → Parse α) (tokens : List Token) : Option α :=
  match (parser (.forTokens tokens)).run tokens with
  | some (value, []) => some value
  | _ => none

/-- Read a whole source file. -/
def SourceFile.parse? (text : String) : Option SourceFile := do
  let tokens ← Token.readFile text
  parseAll (fun g => do
    let attrs ← innerAttributes g
    let items ← toEnd g.item
    return { attrs, items }) tokens

/-- Read a single struct. -/
def StructItem.parse? (text : String) : Option StructItem := do
  let tokens ← Token.read text.toList
  let item ← parseAll (fun g => do structItem g (← outerAttributes g)) tokens
  match item with
  | .struct item _ => some item
  | _ => none

/-- Read a type. -/
def TypeExpr.parse? (text : String) : Option TypeExpr := do
  let tokens ← Token.read text.toList
  parseAll (fun g => g.type true) tokens

end AnnotatedApi.Source
