import AnnotatedApi.Source.Grammar.Pattern
import AnnotatedApi.Source.Lexer

/-! # Expressions

Expressions are read by precedence: a prefixed or postfixed operand first, then operators whose
precedence is high enough. Where a struct literal would be mistaken for a block, as in the condition
of an `if`, `allowStruct` is false. -/

namespace AnnotatedApi.Source

/-! ## Precedences -/

/-- The precedences of operators, in ascending order. -/
inductive Precedence where
  | lowest
  | assign
  | range
  | or
  | and
  | binding
  | compare
  | bitOr
  | bitXor
  | bitAnd
  | shift
  | sum
  | product
  | cast
  deriving DecidableEq, Repr

/-- The rank of a precedence. -/
def Precedence.rank : Precedence → Nat
  | lowest => 0
  | assign => 1
  | range => 2
  | or => 3
  | and => 4
  | binding => 5
  | compare => 6
  | bitOr => 7
  | bitXor => 8
  | bitAnd => 9
  | shift => 10
  | sum => 11
  | product => 12
  | cast => 13

/-- The binary operators with their precedences; of two that fit, the earlier is meant. -/
def binaryOperators : List (String × Precedence) :=
  [("+=", .assign), ("-=", .assign), ("*=", .assign), ("/=", .assign), ("%=", .assign),
   ("^=", .assign), ("&=", .assign), ("|=", .assign), ("<<=", .assign), (">>=", .assign),
   ("&&", .and), ("||", .or), ("<<", .shift), (">>", .shift), ("==", .compare), ("<=", .compare),
   ("!=", .compare), (">=", .compare), ("+", .sum), ("-", .sum), ("*", .product), ("/", .product),
   ("%", .product), ("^", .bitXor), ("&", .bitAnd), ("|", .bitOr), ("<", .compare),
   (">", .compare)]

/-- The binary operator that comes next. -/
def binaryOperator? (tokens : List Token) : Option (String × Precedence) :=
  binaryOperators.find? (fun op => atSign op.1 tokens)

/-- Whether an assignment comes next. -/
def atAssign (tokens : List Token) : Bool :=
  atSign "=" tokens && !atSign "=>" tokens

/-- The precedence of the operator that comes next, the lowest if there is none. -/
def nextPrecedence (tokens : List Token) : Precedence :=
  match binaryOperator? tokens with
  | some (_, precedence) => precedence
  | none =>
      if atAssign tokens then .assign
      else if atSign ".." tokens then .range
      else if atWord "as" tokens then .cast
      else .lowest

/-! ## Where expressions start and end -/

/-- Whether an expression can start here. -/
def atExpr (tokens : List Token) : Bool :=
  (atAnyName tokens && !atWord "as" tokens) || atAnyGroup tokens || startsLiteral tokens ||
    (atSign "!" tokens && !atSign "!=" tokens) ||
    (atSign "-" tokens && !atSign "-=" tokens && !atSign "->" tokens) ||
    (atSign "*" tokens && !atSign "*=" tokens) || (atSign "|" tokens && !atSign "|=" tokens) ||
    (atSign "&" tokens && !atSign "&=" tokens) || atSign ".." tokens ||
    (atSign "<" tokens && !atSign "<=" tokens && !atSign "<<=" tokens) || atSign "::" tokens ||
    atLifetime tokens || atSign "#" tokens

/-- The signs that end a range without an end. -/
def rangeEnders : List String :=
  [",", ";", "?", "=>", "=", "+", "/", "%", "^", ">", "<=", "!=", "-=", "*=", "&=", "|=", "<<="]

/-- Whether a range ends right after its dots. -/
def atRangeEnd (allowStruct : Bool) (tokens : List Token) : Bool :=
  tokens.isEmpty || rangeEnders.any (atSign · tokens) || atDot tokens ||
    (!allowStruct && atGroup .brace tokens) || atWord "as" tokens

/-- Whether something follows a cast that has to stand after parentheses. -/
def atCastMisuse (tokens : List Token) : Bool :=
  atDot tokens || atSign "?" tokens || atGroup .bracket tokens || atGroup .paren tokens

/-! ## Operators -/

mutual

/-- Read operators of at least the precedence `base` after an operand. -/
def operatorsFrom (g : Grammar) (operand : Parse Expr) (allowStruct : Bool) (base : Precedence) :
    Nat → Expr → Parse Expr
  | 0, _ => failure
  | fuel + 1, left => do
      let tokens ← get
      if left.shape == .range then return left
      else
        match binaryOperator? tokens with
        | some (signs, precedence) =>
            if precedence.rank < base.rank then return left
            else if precedence == .compare && left.isComparison then failure
            else
              skip signs.length
              let right ← rightFrom g operand allowStruct precedence fuel
              operatorsFrom g operand allowStruct base fuel
                (.operation (precedence == .compare) left [.expr right])
        | none =>
            if base.rank ≤ Precedence.assign.rank && atAssign tokens then
              skip 1
              let right ← rightFrom g operand allowStruct .assign fuel
              operatorsFrom g operand allowStruct base fuel (.operation false left [.expr right])
            else if base.rank ≤ Precedence.range.rank && atSign ".." tokens then
              let stop ← rangeEndFrom g operand allowStruct fuel
              operatorsFrom g operand allowStruct base fuel
                (.compound .range (.expr left :: stop))
            else if base.rank ≤ Precedence.cast.rank && atWord "as" tokens then
              skip 1
              let type ← g.type false
              if atCastMisuse (← get) then failure
              else
                operatorsFrom g operand allowStruct base fuel
                  (.operation false left type.parts)
            else return left

/-- Read the right side of an operator: an operand with the operators that bind tighter. -/
def rightFrom (g : Grammar) (operand : Parse Expr) (allowStruct : Bool) (precedence : Precedence) :
    Nat → Parse Expr
  | 0 => failure
  | fuel + 1 => do
      let right ← operand
      tighterFrom g operand allowStruct precedence fuel right

/-- Read the operators that bind tighter than a precedence, as long as there are any. -/
def tighterFrom (g : Grammar) (operand : Parse Expr) (allowStruct : Bool)
    (precedence : Precedence) : Nat → Expr → Parse Expr
  | 0, _ => failure
  | fuel + 1, right => do
      let tokens ← get
      let next := nextPrecedence tokens
      if precedence.rank < next.rank || (next == precedence && precedence == .assign) then
        let more ← operatorsFrom g operand allowStruct next fuel right
        if (← get).length == tokens.length then return more
        else tighterFrom g operand allowStruct precedence fuel more
      else return right

/-- Read the dots of a range and its end, if there is one. -/
def rangeEndFrom (g : Grammar) (operand : Parse Expr) (allowStruct : Bool) :
    Nat → Parse (List Part)
  | 0 => failure
  | fuel + 1 => do
      let isClosed ← rangeDots
      if !isClosed && atRangeEnd allowStruct (← get) then return []
      else
        let stop ← rightFrom g operand allowStruct .range fuel
        return [.expr stop]

end

/-- Steps that suffice for the operators in a list of tokens. -/
def operatorFuel (tokens : List Token) : Nat := 4 * tokens.length + 8

/-- Read operators of at least the precedence `base` after an operand. -/
def operators (g : Grammar) (operand : Parse Expr) (allowStruct : Bool) (base : Precedence)
    (left : Expr) : Parse Expr := do
  operatorsFrom g operand allowStruct base (operatorFuel (← get)) left

/-! ## Postfixes -/

/-- Read the arguments of a call. -/
def callArgs (g : Grammar) : Parse (List Expr) :=
  inside .paren (commaList (g.expr true))

/-- Whether the characters are the plain digits of an index. -/
def isIndex (chars : List Char) : Bool :=
  (chars.head?.map Text.isDigit).getD false && chars.all (fun c => Text.isDigit c || c == '_') &&
    isMemberIndex (decimalValue chars)

/-- Read two indices that were cut as one number, such as `0.1`; tells whether its point is still to
be read as one before a member. -/
def doubleIndex? : Parse (Option Bool) := do
  match ← get with
  | .literal l :: rest =>
      match l.value with
      | .real _ _ _ =>
          let indices := l.written.splitOn '.'
          let endsOpen := indices.getLast? == some []
          let indices := if endsOpen then indices.dropLast else indices
          if l.suffix == "" && indices.all isIndex then
            set rest
            return some endsOpen
          else failure
      | _ => return none
  | _ => return none

/-- Read generic arguments after a method's name, with the colons before them. -/
def methodArgs? (g : Grammar) : Parse (Option (List Part)) := do
  if atSign "::" (← get) then
    sign "::"
    expect (atSign "<")
    return some ((← angleArgs g (bound g)).flatMap Prod.snd)
  else return none

/-- Read a member after a dot: a field, or a method call with its arguments. -/
def namedMember (g : Grammar) (receiver : Expr) : Parse Expr := do
  match ← member with
  | none => return .holding [receiver]
  | some method =>
      let args ← methodArgs? g
      if args.isSome || atGroup .paren (← get) then
        let values ← callArgs g
        return .methodCall [] receiver method (args.getD []) values
      else return .holding [receiver]

/-- Read what follows a dot. -/
def memberAccess (g : Grammar) (receiver : Expr) : Parse Expr := do
  match ← doubleIndex? with
  | some false => return .holding [receiver]
  | _ => if ← word? "await" then return .holding [receiver] else namedMember g receiver

/-- Read calls, member accesses, indices and question marks after an operand. -/
def postfixFrom (g : Grammar) : Nat → Expr → Parse Expr
  | 0, _ => failure
  | fuel + 1, e => do
      let tokens ← get
      let isRange := e.shape == .range
      if atGroup .paren tokens then
        let args ← callArgs g
        postfixFrom g fuel (.call [] e args)
      else if atDot tokens && !isRange then
        skip 1
        let access ← memberAccess g e
        postfixFrom g fuel access
      else if atGroup .bracket tokens then
        let index ← inside .bracket (g.expr true)
        postfixFrom g fuel (.holding [e, index])
      else if atSign "?" tokens && !isRange then
        skip 1
        postfixFrom g fuel (.holding [e])
      else return e

/-- Read what follows an operand and belongs to it. -/
def postfixes (g : Grammar) (e : Expr) : Parse Expr := do
  postfixFrom g ((← get).length + 1) e

/-! ## Operands -/

/-- Read the fields of a struct literal; two dots and a base may end them. -/
def structFields (g : Grammar) : Nat → Parse (List Part)
  | 0 => failure
  | fuel + 1 => do
      if (← get).isEmpty then return []
      else if ← sign? ".." then
        if (← get).isEmpty then return [] else return [.expr (← g.expr true)]
      else
        let attrs := attributeParts (← outerAttributes g)
        let key ← member
        let value : List Part ←
          if atSign ":" (← get) || key.isNone then do
            sign ":"
            let value ← g.expr true
            pure [.expr value]
          else pure []
        if (← get).isEmpty then return attrs ++ value
        else
          sign ","
          let rest ← structFields g fuel
          return attrs ++ value ++ rest

/-- Read an expression that starts with a path: the path, a macro call or a struct literal. -/
def pathExpr (g : Grammar) (allowStruct : Bool) : Parse Expr := do
  let path ← fullPath g true
  let tokens ← get
  if atBang tokens && path.isPlain then
    let hasBraces ← macroRest
    return .compound (if hasBraces then .braceMacro else .plainMacro) []
  else if allowStruct && atGroup .brace tokens then
    let fields ← inside .brace (do structFields g ((← get).length + 1))
    return .compound .plain (path.parts ++ fields)
  else return .path path.start path.before path.segments

/-- Read an expression in parentheses or a tuple. -/
def parenExpr (g : Grammar) : Parse Expr := do
  let items ← inside .paren (commaList (g.expr true))
  return .holding items

/-- Read an array, given by its items or by one and a length. -/
def arrayExpr (g : Grammar) : Parse Expr :=
  inside .bracket (do
    if (← get).isEmpty then return .holding []
    else
      let first ← g.expr true
      if ← sign? ";" then
        let length ← g.expr true
        return .holding [first, length]
      else if (← get).isEmpty then return .holding [first]
      else
        sign ","
        let rest ← commaList (g.expr true)
        return .holding (first :: rest))

/-- Read an input of a closure. -/
def closureInput (g : Grammar) : Parse (List Part) := do
  let attrs := attributeParts (← outerAttributes g)
  let input ← g.pattern
  if ← sign? ":" then
    let type ← g.type true
    return attrs ++ input.parts ++ type.parts
  else if input.isTextOnly then return []
  else return attrs ++ input.inner

/-- Read the inputs of a closure. -/
def closureInputs (g : Grammar) : Nat → Parse (List Part)
  | 0 => failure
  | fuel + 1 => do
      if atSign "|" (← get) then return []
      else
        let first ← closureInput g
        if atSign "|" (← get) then return first
        else
          sign ","
          let rest ← closureInputs g fuel
          return first ++ rest

/-- Read a closure. -/
def closureExpr (g : Grammar) (allowStruct : Bool) : Parse Expr := do
  let binder ← binder? g (bound g)
  let _ ← word? "const"
  let _ ← word? "static"
  let _ ← word? "async"
  let _ ← word? "move"
  sign "|"
  let inputs ← closureInputs g ((← get).length + 1)
  sign "|"
  let head := binder.getD [] ++ inputs
  if ← sign? "->" then
    let type ← g.type true
    let body ← g.block false
    return .compound .plain (head ++ type.parts ++ body.parts)
  else
    let body ← g.expr allowStruct
    return .compound .plain (head ++ [.expr body])

/-- Read conditions and branches after an `if`. -/
def ifChain (g : Grammar) : Nat → Parse (List Part)
  | 0 => failure
  | fuel + 1 => do
      word "if"
      let condition ← g.expr false
      let branch ← g.block false
      let first := .expr condition :: branch.parts
      if ← word? "else" then
        if atWord "if" (← get) then
          let rest ← ifChain g fuel
          return first ++ rest
        else
          let rest ← g.block false
          return first ++ rest.parts
      else return first

/-- Read a condition with its branches. -/
def ifExpr (g : Grammar) : Parse Expr := do
  let parts ← ifChain g ((← get).length + 1)
  return .compound .blockLike parts

/-- Read a loop with a condition. -/
def whileExpr (g : Grammar) : Parse Expr := do
  word "while"
  let condition ← g.expr false
  let body ← g.block true
  return .compound .blockLike (body.attrs ++ .expr condition :: body.statements)

/-- Read a loop over a sequence. -/
def forExpr (g : Grammar) : Parse Expr := do
  word "for"
  let item ← anyPattern g
  word "in"
  let sequence ← g.expr false
  let body ← g.block true
  return .compound .blockLike (body.attrs ++ item.parts ++ .expr sequence :: body.statements)

/-- Read a loop without a condition. -/
def loopExpr (g : Grammar) : Parse Expr := do
  word "loop"
  let body ← g.block true
  return .compound .blockLike body.parts

/-- Read a loop or block after a label. -/
def labelledExpr (g : Grammar) : Parse Expr := do
  lifetime
  sign ":"
  let tokens ← get
  if atWord "while" tokens then whileExpr g
  else if atWord "for" tokens then forExpr g
  else if atWord "loop" tokens then loopExpr g
  else if atGroup .brace tokens then return .compound .blockLike (← g.block true).parts
  else failure

/-- Read `let` with a pattern and the expression that it is matched with. -/
def letExpr (g : Grammar) (operand : Parse Expr) (allowStruct : Bool) : Parse Expr := do
  word "let"
  let target ← anyPattern g
  sign "="
  let left ← operand
  let value ← operators g operand allowStruct .compare left
  return .compound .plain (target.parts ++ [.expr value])

/-- Read an optional expression. -/
def optionalExpr (g : Grammar) : Parse (List Part) := do
  if atExpr (← get) then return [.expr (← g.expr true)] else return []

/-- Read `break` with an optional label and value. -/
def breakExpr (g : Grammar) (allowStruct : Bool) : Parse Expr := do
  word "break"
  if atLifetime (← get) && second (atSign ":") (← get) then failure
  else
    let _ ← lifetime?
    if !allowStruct && atGroup .brace (← get) then return .compound .plain []
    else return .compound .plain (← optionalExpr g)

/-- Whether a match arm with the expression needs a comma after it. -/
def needsComma (e : Expr) : Bool :=
  e.shape != .blockLike

/-- Read the arms of a match. -/
def matchArms (g : Grammar) : Nat → Parse (List Part)
  | 0 => failure
  | fuel + 1 => do
      if (← get).isEmpty then return []
      else
        let attrs := attributeParts (← outerAttributes g)
        let target ← anyPattern g
        let guarded ← if ← word? "if" then (do return [.expr (← g.expr true)]) else pure []
        sign "=>"
        let value ← g.statementExpr
        if needsComma value && !(← get).isEmpty then sign "," else let _ ← sign? ","
        let rest ← matchArms g fuel
        return attrs ++ target.parts ++ guarded ++ .expr value :: rest

/-- Read a match. -/
def matchExpr (g : Grammar) : Parse Expr := do
  word "match"
  let value ← g.expr false
  let (attrs, arms) ← inside .brace (do
    let attrs ← innerAttributes g
    let arms ← matchArms g ((← get).length + 1)
    return (attributeParts attrs, arms))
  return .compound .blockLike (attrs ++ .expr value :: arms)

/-- Read a block after the words before it. -/
def wordBlock (g : Grammar) (words : List String) (allowInner : Bool) (shape : ExprShape) :
    Parse Expr := do
  words.forM word
  return .compound shape (← g.block allowInner).parts

/-- Whether a closure starts here. -/
def atClosure (tokens : List Token) : Bool :=
  atSign "|" tokens || atWord "move" tokens ||
    (atWord "for" tokens && second atGenericParams tokens) ||
    (atWord "const" tokens && !second (atGroup .brace) tokens) || atWord "static" tokens ||
    (atWord "async" tokens && (second (atSign "|") tokens || second (atWord "move") tokens))

/-- Read an operand without prefixes and postfixes. -/
def atomBody (g : Grammar) (allowStruct : Bool) : Parse Expr := do
  let tokens ← get
  if startsLiteral tokens then return .literal [] (← literal)
  else if atWord "async" tokens && second (atGroup .brace) tokens then
    wordBlock g ["async"] false .plain
  else if atWord "async" tokens && second (atWord "move") tokens &&
      third (atGroup .brace) tokens then
    wordBlock g ["async", "move"] false .plain
  else if atWord "try" tokens && second (atGroup .brace) tokens then
    wordBlock g ["try"] false .blockLike
  else if atClosure tokens then closureExpr g allowStruct
  else if atBuiltin tokens then
    builtin
    return .compound .textOnly []
  else if atPathStart tokens || (atWord "try" tokens &&
      (second (atSign "!") tokens || second (atSign "::") tokens)) then
    pathExpr g allowStruct
  else if atGroup .paren tokens then parenExpr g
  else if atWord "break" tokens then breakExpr g allowStruct
  else if ← word? "continue" then
    let _ ← lifetime?
    return .compound .plain []
  else if ← word? "return" then return .compound .plain (← optionalExpr g)
  else if ← word? "yield" then return .compound .plain (← optionalExpr g)
  else if ← word? "become" then
    let _ ← g.expr true
    return .compound .textOnly []
  else if atGroup .bracket tokens then arrayExpr g
  else if atWord "let" tokens then letExpr g (g.unary allowStruct) allowStruct
  else if atWord "if" tokens then ifExpr g
  else if atWord "while" tokens then whileExpr g
  else if atWord "for" tokens then forExpr g
  else if atWord "loop" tokens then loopExpr g
  else if atWord "match" tokens then matchExpr g
  else if atWord "unsafe" tokens then wordBlock g ["unsafe"] true .blockLike
  else if atWord "const" tokens then wordBlock g ["const"] true .blockLike
  else if atGroup .brace tokens then return .compound .blockLike (← g.block true).parts
  else if atSign ".." tokens then
    let stop ← rangeEndFrom g (g.unary allowStruct) allowStruct (operatorFuel tokens)
    return .compound .range stop
  else if ← word? "_" then return .compound .plain []
  else if atLifetime tokens then labelledExpr g
  else failure

/-- Read an operand with its prefixes and postfixes. Attributes may not stand before the dots of a
range. -/
def unaryBody (g : Grammar) (allowStruct : Bool) : Parse Expr := do
  let attrs ← outerAttributes g
  let tokens ← get
  if atSign "&" tokens then
    skip 1
    let after ← get
    if atWord "raw" after && second (atWords ["mut", "const"]) after then skip 2
    else
      let _ ← word? "mut"
    let target ← g.unary allowStruct
    return (Expr.holding [target]).withAttrs (attributeParts attrs)
  else if atSign "*" tokens || atSign "!" tokens || atSign "-" tokens then
    skip 1
    let target ← g.unary allowStruct
    return (Expr.holding [target]).withAttrs (attributeParts attrs)
  else
    let atom ← atomBody g allowStruct
    let e ← postfixes g atom
    if e.shape == .range && !attrs.isEmpty then failure
    else return e.withAttrs (attributeParts attrs)

/-- Read a whole expression. -/
def exprBody (g : Grammar) (allowStruct : Bool) : Parse Expr := do
  let operand := unaryBody g allowStruct
  let left ← operand
  operators g operand allowStruct .lowest left

/-! ## Expressions as statements -/

/-- Read the start of an expression that stands where a statement may: a block-like expression ends
there unless a dot or a question mark follows. -/
def leadingExpr (g : Grammar) (operand : Parse Expr) : Parse Expr := do
  let tokens ← get
  if atWord "if" tokens then ifExpr g
  else if atWord "while" tokens then whileExpr g
  else if atWord "for" tokens && !second atGenericParams tokens then forExpr g
  else if atWord "loop" tokens then loopExpr g
  else if atWord "match" tokens then matchExpr g
  else if atWord "try" tokens && second (atGroup .brace) tokens then
    wordBlock g ["try"] false .blockLike
  else if atWord "unsafe" tokens then wordBlock g ["unsafe"] true .blockLike
  else if atWord "const" tokens && second (atGroup .brace) tokens then
    wordBlock g ["const"] true .blockLike
  else if atGroup .brace tokens then return .compound .blockLike (← g.block true).parts
  else if atLifetime tokens then labelledExpr g
  else operand

/-- Read an expression that stands where a statement may. -/
def statementExprBody (g : Grammar) : Parse Expr := do
  let operand := unaryBody g true
  let attrs := attributeParts (← outerAttributes g)
  let first ← leadingExpr g operand
  let tokens ← get
  if first.shape != .blockLike then operators g operand true .lowest (first.withAttrs attrs)
  else if atDot tokens || atSign "?" tokens then
    let more ← postfixes g first
    operators g operand true .lowest (more.withAttrs attrs)
  else return first.withAttrs attrs

end AnnotatedApi.Source
