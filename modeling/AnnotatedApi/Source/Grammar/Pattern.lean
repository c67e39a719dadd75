import AnnotatedApi.Source.Grammar.Type

/-! # Patterns -/

namespace AnnotatedApi.Source

/-- Read the dots of a range in an expression: two, or two with an equals sign. Tells whether the
range includes its end. -/
def rangeDots : Parse Bool := do
  if ← sign? "..=" then return true
  else if atSign "..." (← get) then failure
  else
    sign ".."
    return false

/-- Read the dots of a range in a pattern, where three dots include the end. -/
def patternRangeDots : Parse Bool := do
  if ← sign? "..=" then return true
  else if ← sign? "..." then return true
  else
    sign ".."
    return false

/-- Whether a pattern ends here. -/
def atPatternEnd (tokens : List Token) : Bool :=
  tokens.isEmpty || atSign "|" tokens || atSign "=" tokens || atColon tokens ||
    atSign "," tokens || atSign ";" tokens || atWord "if" tokens

/-- Read an end of a range, if there is one; it can be a pattern by itself. -/
def rangeBound (g : Grammar) : Parse (Option Pattern) := do
  let tokens ← get
  if atPatternEnd tokens then return none
  else if startsLiteral tokens then
    let _ ← literal
    return some {}
  else if atPathStart tokens then
    return some { inner := (← fullPath g true).parts }
  else if ← word? "const" then
    let block ← g.block true
    return some { attrs := block.attrs, inner := block.statements }
  else failure

/-- Read the rest of a range whose start was read: an end has to follow where it is included. -/
def rangeRest (g : Grammar) (start : List Part) : Parse Pattern := do
  let isClosed ← patternRangeDots
  match ← rangeBound g with
  | some stop => return { inner := start ++ stop.parts }
  | none => if isClosed then failure else return { isOpenRange := true, inner := start }

/-- Whether a further alternative follows. -/
def atAlternative (tokens : List Token) : Bool :=
  atSign "|" tokens && !atSign "||" tokens && !atSign "|=" tokens

/-- Read further alternatives. -/
def alternatives (g : Grammar) : Nat → Parse (List Part)
  | 0 => failure
  | fuel + 1 => do
      if atAlternative (← get) then
        skip 1
        let first ← g.pattern
        let rest ← alternatives g fuel
        return first.parts ++ rest
      else return []

/-- Read a pattern with alternatives, the first of which may have a bar before it. -/
def anyPattern (g : Grammar) : Parse Pattern := do
  let hasBar ← sign? "|"
  let first ← g.pattern
  if hasBar || atAlternative (← get) then
    let rest ← alternatives g ((← get).length + 1)
    return { inner := first.parts ++ rest }
  else return first

/-- Whether a number can be the index of a member. -/
def isMemberIndex (index : Int) : Bool :=
  0 ≤ index && index < 4294967296

/-- Read a member: a name, or the plain number of one without a name. -/
def member : Parse (Option String) := do
  match ← get with
  | .name w :: rest => if isKeyword w then failure else set rest; return some w
  | .literal l :: rest =>
      match l.value with
      | .integer index =>
          if l.suffix == "" && isMemberIndex index then set rest; return none else failure
      | _ => failure
  | _ => failure

/-- Read one field of a struct pattern. -/
def fieldPattern (g : Grammar) : Parse (List Part) := do
  let isBoxed ← word? "box"
  let byReference ← word? "ref"
  let isMutable ← word? "mut"
  let marked := isBoxed || byReference || isMutable
  let isNamed ← if marked then (do let _ ← name; return true) else (do return (← member).isSome)
  if (!marked && atSign ":" (← get)) || !isNamed then
    sign ":"
    return (← anyPattern g).parts
  else return []

/-- Read the fields of a struct pattern; two dots end them. -/
def fieldPatterns (g : Grammar) : Nat → Parse (List Part)
  | 0 => failure
  | fuel + 1 => do
      if (← get).isEmpty then return []
      else
        let attrs := attributeParts (← outerAttributes g)
        if ← sign? ".." then return attrs
        else
          let first ← fieldPattern g
          if (← get).isEmpty then return attrs ++ first
          else
            sign ","
            let rest ← fieldPatterns g fuel
            return attrs ++ first ++ rest

/-- Read a pattern that starts with a path. -/
def pathPattern (g : Grammar) : Parse Pattern := do
  let path ← fullPath g true
  let tokens ← get
  if atBang tokens && path.isPlain then
    let _ ← macroRest
    return {}
  else if atGroup .brace tokens then
    let fields ← inside .brace (do fieldPatterns g ((← get).length + 1))
    return { inner := path.parts ++ fields }
  else if atGroup .paren tokens then
    let items ← inside .paren (commaList (anyPattern g))
    return { inner := path.parts ++ items.flatMap Pattern.parts }
  else if atSign ".." tokens then rangeRest g path.parts
  else return { inner := path.parts }

/-- Read a pattern that binds a name. -/
def namePattern (g : Grammar) : Parse Pattern := do
  let _ ← word? "ref"
  let _ ← word? "mut"
  let bound ← if atWord "self" (← get) then anyName else name
  let inner ← if ← sign? "@" then (do return (← g.pattern).parts) else pure []
  return { bound := some bound, inner }

/-- Whether a pattern that starts with a path comes next. -/
def atPathPattern (tokens : List Token) : Bool :=
  (atName tokens && (second (atSign "::") tokens || second (atSign "!") tokens ||
      second (atGroup .brace) tokens || second (atGroup .paren) tokens ||
      second (atSign "..") tokens)) ||
    (atWord "self" tokens && second (atSign "::") tokens) || atSign "::" tokens ||
    atSign "<" tokens || atWords ["Self", "super", "crate"] tokens

/-- Read a pattern without alternatives. -/
def patternBody (g : Grammar) : Parse Pattern := do
  let tokens ← get
  if atPathPattern tokens then pathPattern g
  else if ← word? "_" then return {}
  else if ← word? "box" then
    let _ ← g.pattern
    return { isTextOnly := true }
  else if atSign "-" tokens || startsLiteral tokens || atWord "const" tokens then
    match ← rangeBound g with
    | some start => if atSign ".." (← get) then rangeRest g start.parts else return start
    | none => failure
  else if atWords ["ref", "mut", "self"] tokens || atName tokens then namePattern g
  else if ← sign? "&" then
    let _ ← word? "mut"
    return { inner := (← g.pattern).parts }
  else if atGroup .paren tokens then
    let items ← inside .paren (commaList (anyPattern g))
    return { inner := items.flatMap Pattern.parts }
  else if atGroup .bracket tokens then
    let items ← inside .bracket (commaList (do
      let item ← anyPattern g
      if item.isOpenRange then failure else return item))
    return { inner := items.flatMap Pattern.parts }
  else if atSign ".." tokens && !atSign "..." tokens then
    let isClosed ← rangeDots
    match ← rangeBound g with
    | some stop => return { isOpenRange := true, inner := stop.parts }
    | none => if isClosed then failure else return {}
  else failure

end AnnotatedApi.Source
