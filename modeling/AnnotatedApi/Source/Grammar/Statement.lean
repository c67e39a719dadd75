import AnnotatedApi.Source.Grammar.Expression

/-! # Statements and blocks -/

namespace AnnotatedApi.Source

/-- What reading a statement yields: its parts, and whether a semicolon has to follow unless the
block ends. -/
structure Statement where
  parts : List Part
  needsSemicolon : Bool := false

/-! ## Items among statements -/

/-- Whether the tokens after `static` make an item and no closure. -/
def atStaticItem (tokens : List Token) : Bool :=
  second (atWord "mut") tokens || second atName tokens

/-- Whether the tokens after `const` make an item, and neither a block nor a closure. -/
def atConstItem (tokens : List Token) : Bool :=
  !(second (atGroup .brace) tokens || second (atWord "static") tokens ||
    (second (atWord "async") tokens && !third (atWords ["unsafe", "extern", "fn"]) tokens) ||
    second (atWord "move") tokens || second (atSign "|") tokens)

/-- Whether a statement starts as an item does, macro calls apart. -/
def atItemStatement (tokens : List Token) : Bool :=
  atWords ["pub", "extern", "use", "fn", "mod", "type", "struct", "enum", "trait", "impl",
    "macro"] tokens ||
    (atWord "crate" tokens && !second (atSign "::") tokens) ||
    (atWord "static" tokens && atStaticItem tokens) ||
    (atWord "const" tokens && atConstItem tokens) ||
    (atWord "unsafe" tokens && !second (atGroup .brace) tokens) ||
    (atWord "async" tokens && second (atWords ["unsafe", "extern", "fn"]) tokens) ||
    (atWord "union" tokens && second atName tokens) ||
    (atWord "auto" tokens && second (atWord "trait") tokens) ||
    (atWord "default" tokens && second (atWords ["unsafe", "impl"]) tokens)

/-- What a statement is that starts with the path of a macro call. -/
inductive MacroStart where
  /-- No macro call, or one that is an expression. -/
  | none
  /-- A macro call that is an item. -/
  | item
  /-- A macro call in braces that is a statement of its own. -/
  | statement

/-- What kind of macro call starts here. -/
def macroStart (tokens : List Token) : MacroStart :=
  match plainPath.run tokens with
  | some (_, rest) =>
      if atSign "!" rest then
        if second atName rest || second (atWord "try") rest then .item
        else if second (atGroup .brace) rest &&
            !(third atDot rest || third (atSign "?") rest) then .statement
        else .none
      else .none
  | none => .none

/-! ## Bindings -/

/-- Whether the tokens between a start and a rest end with braces. -/
def endsWithBraces (start rest : List Token) : Bool :=
  atGroup .brace ((start.take (start.length - rest.length)).drop
    (start.length - rest.length - 1))

/-- Read a `let` statement after its attributes. A plain name with a value is a binding; otherwise
the parts are those of the attributes, the pattern, its type, the value and the block that runs when
the pattern does not match. -/
def letStatement (g : Grammar) (attrs : List Part) : Parse Statement := do
  word "let"
  let target ← g.pattern
  let type? : Option TypeExpr ← if ← sign? ":" then (do return some (← g.type true)) else pure none
  let head := attrs ++ target.parts ++ (type?.map TypeExpr.parts).getD []
  if ← sign? "=" then
    let start ← get
    let value ← g.expr true
    let after ← get
    let otherwise : List Part ←
      if !endsWithBraces start after && atWord "else" after then do
        skip 1
        pure (← g.block false).parts
      else pure []
    sign ";"
    match target.bound, type? with
    | some bound, none => return { parts := [.binding bound value] }
    | _, _ => return { parts := head ++ .expr value :: otherwise }
  else
    sign ";"
    return { parts := head }

/-! ## Statements -/

/-- Read an expression as a statement after its attributes, with the semicolon after it. -/
def exprStatement (g : Grammar) (attrs : List Part) : Parse Statement := do
  let e ← statementExprBody g
  let parts := [.expr (e.withAttrs attrs)]
  if ← sign? ";" then return { parts := parts }
  else return { parts, needsSemicolon := e.shape != .blockLike && e.shape != .braceMacro }

/-- Read one statement. -/
def statement (g : Grammar) : Parse Statement := do
  let start ← get
  let attrs := attributeParts (← outerAttributes g)
  let tokens ← get
  match macroStart tokens with
  | .statement =>
      let _ ← plainPath
      let _ ← macroRest
      let _ ← sign? ";"
      return { parts := attrs }
  | .item =>
      if atWord "let" tokens then letStatement g attrs
      else
        set start
        return { parts := (← g.item).parts }
  | .none =>
      if atWord "let" tokens then letStatement g attrs
      else if atItemStatement tokens then
        set start
        return { parts := (← g.item).parts }
      else exprStatement g attrs

/-- Skip semicolons. -/
def skipSemicolons : Parse Unit := do
  let _ ← readUntil (fun tokens => !atSign ";" tokens) (sign ";")

/-- Read statements up to the end of the tokens, at most `fuel` of them. -/
def statementsFrom (g : Grammar) : Nat → Parse (List Part)
  | 0 => failure
  | fuel + 1 => do
      skipSemicolons
      if (← get).isEmpty then return []
      else
        let first ← statement g
        if (← get).isEmpty then return first.parts
        else if first.needsSemicolon then failure
        else
          let rest ← statementsFrom g fuel
          return first.parts ++ rest

/-- Read statements up to the end of the tokens. -/
def statements (g : Grammar) : Parse (List Part) := do
  statementsFrom g ((← get).length + 1)

/-- Read a block, with attributes at its beginning where `allowInner` says; yields the attributes
too. -/
def attributedBlock (g : Grammar) (allowInner : Bool) : Parse (List Attribute × List Part) :=
  inside .brace (do
    let attrs ← if allowInner then innerAttributes g else pure []
    let parts ← statements g
    return (attrs, parts))

/-- Read a block. -/
def plainBlock (g : Grammar) (allowInner : Bool) : Parse Block := do
  let (attrs, statements) ← attributedBlock g allowInner
  return { attrs := attributeParts attrs, statements }

end AnnotatedApi.Source
