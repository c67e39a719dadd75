import AnnotatedApi.Source.Grammar.Attribute

/-! # Types, paths and generics

Bounds, paths and generic parameters nest in each other, so the parsers of paths and parameters are
given the parser of a bound that occurs in them. -/

namespace AnnotatedApi.Source

/-! ## Constant arguments -/

/-- Whether a literal or a block comes next. -/
def atConstArgument (tokens : List Token) : Bool :=
  startsLiteral tokens || atGroup .brace tokens

/-- Read a constant among generics: a literal, a name or a block. -/
def constArgument (g : Grammar) : Parse (List Part) := do
  let tokens ← get
  if startsLiteral tokens then
    let _ ← literal
    return []
  else if atName tokens then
    skip 1
    return []
  else return (← g.block true).parts

/-! ## Generic parameters -/

/-- Whether angle brackets hold generic parameters and do not start a path. -/
def atGenericParams (tokens : List Token) : Bool :=
  atSign "<" tokens &&
    (second (atSign ">") tokens || second (atSign "#") tokens ||
      ((second atLifetime tokens || second atName tokens) &&
        (third (atSign ">") tokens || third (atSign ",") tokens || third atColon tokens ||
          third (atSign "=") tokens)) ||
      second (atWord "const") tokens)

/-- Whether the list of a parameter's bounds ends here. -/
def atParamBoundsEnd (tokens : List Token) : Bool :=
  atSign "," tokens || atSign ">" tokens || atSign "=" tokens

/-- Read one generic parameter after its attributes. -/
def paramRest (g : Grammar) (bound : Parse (List Part)) : Parse (List Part) := do
  if ← lifetime? then
    if ← sign? ":" then
      let _ ← boundList (fun tokens => tokens.isEmpty || atSign "," tokens || atSign ">" tokens)
        lifetime
      return []
    else return []
  else if ← word? "const" then
    let _ ← name
    sign ":"
    let type ← g.type true
    let fallback ← if ← sign? "=" then constArgument g else pure []
    return type.parts ++ fallback
  else
    let _ ← name
    let bounds ← if ← sign? ":" then boundList atParamBoundsEnd bound else pure []
    let fallback ← if ← sign? "=" then (do return (← g.type true).parts) else pure []
    return bounds.flatten ++ fallback

/-- Read one generic parameter. -/
def genericParam (g : Grammar) (bound : Parse (List Part)) : Parse (List Part) := do
  let attrs ← outerAttributes g
  return attributeParts attrs ++ (← paramRest g bound)

/-- Read the parameters of a binder such as `for<'a>`, if there is one. -/
def binder? (g : Grammar) (bound : Parse (List Part)) : Parse (Option (List Part)) := do
  if ← word? "for" then
    sign "<"
    let params ← separated (atSign ">") "," (genericParam g bound)
    sign ">"
    return some params.flatten
  else return none

/-! ## Paths within types -/

/-- Read the types between the parentheses of a function bound, and its result. -/
def functionArgs (g : Grammar) : Parse (List Part) := do
  let inputs ← inside .paren (commaList (g.type true))
  let output ← if ← sign? "->" then (do return (← g.type false).parts) else pure []
  return inputs.flatMap TypeExpr.parts ++ output

/-- Read a path of types after its leading colons, given the parser of a segment. -/
def pathSegments (segment : Parse PathSegment) : Nat → Parse (List PathSegment)
  | 0 => failure
  | fuel + 1 => do
      let first ← segment
      if atSign "::" (← get) && !third (atGroup .paren) (← get) then
        sign "::"
        let rest ← pathSegments segment fuel
        return first :: rest
      else return [first]

/-- Whether a type is a path of one segment with nothing before it, which can name an associated
item. -/
def isSingleSegment : TypeExpr → Bool
  | .path .plain _ [_] => true
  | _ => false

/-- Read one generic argument: the type if it is one, and its parts. -/
def genericArgument (g : Grammar) (bound : Parse (List Part)) :
    Parse (Option TypeExpr × List Part) := do
  let tokens ← get
  if atLifetime tokens && !second (atSign "+") tokens then
    lifetime
    return (none, [])
  else if atConstArgument tokens then
    let parts ← constArgument g
    return (none, parts)
  else
    let type ← g.type true
    if isSingleSegment type then
      if ← sign? "=" then
        if atConstArgument (← get) then
          let parts ← constArgument g
          return (none, type.parts ++ parts)
        else
          let value ← g.type true
          return (none, type.parts ++ value.parts)
      else if ← sign? ":" then
        let bounds ← boundList (fun tokens => atSign "," tokens || atSign ">" tokens) bound
        return (none, type.parts ++ bounds.flatten)
      else return (some type, type.parts)
    else return (some type, type.parts)

/-- Read generic arguments between angle brackets: of each the type, if it is one, and the parts. -/
def angleArgs (g : Grammar) (bound : Parse (List Part)) :
    Parse (List (Option TypeExpr × List Part)) := do
  let _ ← sign? "::"
  sign "<"
  let args ← separated (atSign ">") "," (genericArgument g bound)
  sign ">"
  return args

/-- The segment of a name with arguments in angle brackets. -/
def segmentWithArgs (name : String) (args : List (Option TypeExpr × List Part)) : PathSegment :=
  .mk name (if args.isEmpty then .empty else .angle) (args.head?.map Prod.fst).join
    (args.flatMap Prod.snd)

/-- Read a segment of a path. In expressions, angle brackets need colons before them. -/
def pathSegmentWith (g : Grammar) (bound : Parse (List Part)) (inExpr : Bool) :
    Parse PathSegment := do
  if atWords ["super", "self", "crate", "try"] (← get) then
    return .mk (← anyName) .none none []
  else
    let segment ← if atWord "Self" (← get) then anyName else name
    let tokens ← get
    if (!inExpr && atSign "<" tokens && !atSign "<=" tokens) ||
        (atSign "::" tokens && third (atSign "<") tokens) then
      return segmentWithArgs segment (← angleArgs g bound)
    else return .mk segment .none none []

/-- Read a path; tells whether it starts with colons. -/
def pathWith (g : Grammar) (bound : Parse (List Part)) (inExpr : Bool) :
    Parse (Bool × List PathSegment) := do
  let isGlobal ← sign? "::"
  let segments ← pathSegments (pathSegmentWith g bound inExpr) ((← get).length + 1)
  return (isGlobal, segments)

/-! ## Bounds -/

/-- Whether arguments in parentheses may follow a path: its last segment has none. -/
def takesFunctionArgs (segments : List PathSegment) : Bool :=
  match segments.getLast?.map PathSegment.args with
  | some .none => true
  | some .empty => true
  | _ => false

/-- Read the constness before the trait of a bound, allowed only where `allowConst` says; tells
whether there is one. -/
def boundConst? (allowConst : Bool) : Parse Bool := do
  if atGroup .bracket (← get) then
    inside .bracket (word "const")
    if allowConst then return true else failure
  else if ← word? "const" then
    if allowConst then return true else failure
  else return false

/-- Read the trait of a bound; one that says something of constness is kept as mere text. -/
def traitBound (g : Grammar) (bound : Parse (List Part)) (allowConst : Bool) :
    Parse (List Part) := do
  let before ← binder? g bound
  let hasConst ← boundConst? allowConst
  let isOptional ← sign? "?"
  let binder ← if before.isNone && isOptional then binder? g bound else pure before
  let (_, segments) ← pathWith g bound false
  let tokens ← get
  let args ←
    if takesFunctionArgs segments &&
        (atGroup .paren tokens || (atSign "::" tokens && third (atGroup .paren) tokens)) then do
      let _ ← sign? "::"
      functionArgs g
    else pure []
  if binder.isSome && isOptional then failure
  else if hasConst then return []
  else return binder.getD [] ++ segments.flatMap PathSegment.parts ++ args

/-- What kind of bound was read: a lifetime, a captured list, or a trait. -/
inductive BoundKind where
  | lifetime
  | capture
  | trait
  deriving DecidableEq

/-- Read a bound whose paths may nest bounds up to `fuel` deep. -/
def boundFrom (g : Grammar) (allowCapture allowConst : Bool) :
    Nat → Parse (BoundKind × List Part)
  | 0 => failure
  | fuel + 1 => do
      if ← lifetime? then return (.lifetime, [])
      else if atWord "use" (← get) then
        word "use"
        sign "<"
        let _ ← separated (atSign ">") "," (do
          if atLifetime (← get) then lifetime
          else if atName (← get) || atWord "Self" (← get) then
            let _ ← anyName
            return ()
          else failure)
        sign ">"
        if allowCapture then return (.capture, []) else failure
      else
        let inner := (do return (← boundFrom g false true fuel).2 : Parse (List Part))
        if atGroup .paren (← get) then
          let parts ← inside .paren (traitBound g inner allowConst)
          return (.trait, parts)
        else
          let parts ← traitBound g inner allowConst
          return (.trait, parts)

/-- Read a bound. -/
def boundOf (g : Grammar) (allowCapture allowConst : Bool) : Parse (BoundKind × List Part) := do
  boundFrom g allowCapture allowConst (Token.weightOfList (← get) + 1)

/-- Read a bound of a type parameter. -/
def bound (g : Grammar) : Parse (List Part) := do
  return (← boundOf g false true).2

/-- Whether another bound can start after a plus sign. -/
def atBound (allowConst : Bool) (tokens : List Token) : Bool :=
  atAnyName tokens || atSign "::" tokens || atSign "?" tokens || atLifetime tokens ||
    atGroup .paren tokens || (allowConst && (atGroup .bracket tokens || atWord "const" tokens))

/-- Read bounds with plus signs between them, given the first; after a plus sign that no bound
follows the list ends. -/
def moreBoundsFrom (parser : Parse (BoundKind × List Part)) (allowConst : Bool) :
    Nat → Parse (List (BoundKind × List Part))
  | 0 => failure
  | fuel + 1 => do
      if ← sign? "+" then
        if atBound allowConst (← get) then
          let first ← parser
          let rest ← moreBoundsFrom parser allowConst fuel
          return first :: rest
        else return []
      else return []

/-- Read the bounds of a trait object or an opaque type, of which one has to be a trait. -/
def objectBounds (g : Grammar) (allowPlus allowCapture allowConst : Bool) :
    Parse (List Part) := do
  let parser := boundOf g allowCapture allowConst
  let first ← parser
  let rest ← if allowPlus then do moreBoundsFrom parser allowConst ((← get).length + 1) else pure []
  let bounds := first :: rest
  if bounds.any (fun b => b.1 == .trait) then return bounds.flatMap Prod.snd else failure

/-! ## Paths -/

/-- Read a path. -/
def path (g : Grammar) (inExpr : Bool) : Parse (Bool × List PathSegment) :=
  pathWith g (bound g) inExpr

/-- A path that was read: its start, the parts of what stands before its segments, and those. -/
structure FullPath where
  start : PathStart
  before : List Part
  segments : List PathSegment

namespace FullPath

/-- The parts of a path. -/
def parts (path : FullPath) : List Part :=
  path.before ++ path.segments.flatMap PathSegment.parts

/-- Whether a path consists of plain names only, as that of a macro call does. -/
def isPlain (path : FullPath) : Bool :=
  path.start != .qualified && path.segments.all fun segment => !segment.hasArgs

end FullPath

/-- Read a path that may start with a type in angle brackets, perhaps seen as a trait. -/
def fullPath (g : Grammar) (inExpr : Bool) : Parse FullPath := do
  if ← sign? "<" then
    let type ← g.type true
    let traitSegments ← if ← word? "as" then (do return (← path g false).2) else pure []
    sign ">"
    sign "::"
    let segments ← allSegments (pathSegmentWith g (bound g) inExpr) ((← get).length + 1)
    return ⟨.qualified, type.parts, traitSegments ++ segments⟩
  else
    let (isGlobal, segments) ← path g inExpr
    return ⟨if isGlobal then .global else .plain, [], segments⟩
where
  /-- Read segments as long as colons come next. -/
  allSegments (segment : Parse PathSegment) : Nat → Parse (List PathSegment)
    | 0 => failure
    | fuel + 1 => do
        let first ← segment
        if ← sign? "::" then
          let rest ← allSegments segment fuel
          return first :: rest
        else return [first]

/-! ## Function types -/

/-- Read an optional interface such as `extern "C"`. -/
def interface? : Parse Unit := do
  if ← word? "extern" then
    if atText (← get) then skip 1

/-- Whether `mut self` comes next. -/
def atMutSelf (tokens : List Token) : Bool :=
  atWord "mut" tokens && second (atWord "self") tokens

/-- Read one parameter of a function type after its attributes. Only the first may be `self`, and
where it is mutable it is kept as mere text. -/
def functionTypeParam (g : Grammar) (isFirst : Bool) : Parse (List Part) := do
  let isMutSelf := isFirst && atMutSelf (← get)
  if isMutSelf then skip 1
  let tokens ← get
  let isSelf := isFirst && atWord "self" tokens
  let isNamed := (atName tokens || atWord "_" tokens || isSelf) && second atColon tokens
  if isNamed then skip 2
  if isFirst && !(isNamed && isSelf) && atMutSelf (← get) then
    skip 2
    return []
  else if isMutSelf && !isNamed then
    word "self"
    return []
  else
    let type ← g.type true
    return if isMutSelf then [] else type.parts

/-- Read the parameters of a function type, which may end with dots. -/
def functionTypeParams (g : Grammar) (isFirst : Bool) : Nat → Parse (List Part)
  | 0 => failure
  | fuel + 1 => do
      if (← get).isEmpty then return []
      else
        let attrs := attributeParts (← outerAttributes g)
        let tokens ← get
        if atSign "..." tokens then
          skip 3
          let _ ← sign? ","
          return attrs
        else if (atName tokens || atWord "_" tokens) && second (atSign ":") tokens &&
            third (atSign "...") tokens then
          skip 5
          let _ ← sign? ","
          return attrs
        else
          let first ← functionTypeParam g isFirst
          if (← get).isEmpty then return attrs ++ first
          else
            sign ","
            let rest ← functionTypeParams g false fuel
            return attrs ++ first ++ rest

/-- Read a function type after its binder. -/
def functionType (g : Grammar) : Parse (List Part) := do
  let _ ← word? "unsafe"
  interface?
  word "fn"
  let inputs ← inside .paren (do functionTypeParams g true ((← get).length + 1))
  let output ← if ← sign? "->" then (do return (← g.type false).parts) else pure []
  return inputs ++ output

/-! ## Types -/

/-- Read bounds as long as plus signs come next; tells whether there are any. -/
def plusBounds (g : Grammar) : Nat → Parse (Bool × List Part)
  | 0 => failure
  | fuel + 1 => do
      if ← sign? "+" then
        let first ← boundOf g false false
        let rest ← plusBounds g fuel
        return (true, first.2 ++ rest.2)
      else return (false, [])

/-- Whether a type in parentheses may be the first of several bounds. -/
def canBeBound : TypeExpr → Bool
  | .path start _ _ => start != .qualified
  | .bounds isSingle _ => isSingle
  | _ => false

/-- Read the only thing or the things with commas between them that stand in parentheses in place of
a type: the only thing if there is no comma, and the parts. -/
def parenContent (g : Grammar) : Parse (Option TypeExpr × List Part) := do
  if atLifetime (← get) then
    let parts ← objectBounds g true false false
    return (some (.other parts), parts)
  else
    let first ← g.type true
    if ← sign? "," then
      let rest ← commaList (g.type true)
      return (none, first.parts ++ rest.flatMap TypeExpr.parts)
    else return (some first, first.parts)

/-- Read what stands in parentheses in place of a type: a tuple, or a type that bounds may
follow. -/
def parenType (g : Grammar) (allowPlus : Bool) : Parse TypeExpr := do
  match ← get with
  | .group .paren [] :: rest => set rest; return .other []
  | .group .paren tokens :: _ =>
      if atSign "?" tokens then
        let first ← inside .paren (traitBound g (bound g) false)
        let (isLong, more) ← plusBounds g ((← get).length + 1)
        return .bounds (!isLong) (first ++ more)
      else
        let (only, parts) ← inside .paren (parenContent g)
        if allowPlus && atSign "+" (← get) && (only.map canBeBound).getD false then
          let (_, more) ← plusBounds g ((← get).length + 1)
          return .bounds false (parts ++ more)
        else return .other parts
  | _ => failure

/-- Whether a word that starts a path comes next. -/
def atPathStart (tokens : List Token) : Bool :=
  atName tokens || atPathKeyword tokens || atSign "::" tokens || atSign "<" tokens

/-- Read a type that starts with a path: the path itself, a macro call or bounds. -/
def pathType (g : Grammar) (allowPlus : Bool) (binder : Option (List Part)) : Parse TypeExpr := do
  let path ← fullPath g false
  let tokens ← get
  if path.start == .qualified then return .path path.start path.before path.segments
  else if atBang tokens && path.isPlain then
    let _ ← macroRest
    return .other []
  else if binder.isSome || (allowPlus && atSign "+" tokens) then
    let more ←
      if allowPlus then do
        moreBoundsFrom (boundOf g false false) false ((← get).length + 1)
      else pure []
    return .bounds (!(allowPlus && atSign "+" tokens))
      (binder.getD [] ++ path.parts ++ more.flatMap Prod.snd)
  else return .path path.start path.before path.segments

/-- Whether something of the compiler's own comes next. -/
def atBuiltin (tokens : List Token) : Bool :=
  atWord "builtin" tokens && second (atSign "#") tokens

/-- Read something of the compiler's own: its name, and tokens in parentheses. -/
def builtin : Parse Unit := do
  word "builtin"
  sign "#"
  let _ ← name
  expect (atGroup .paren)
  let _ ← anyGroup

/-- Read a type; `allowPlus` tells whether further bounds may follow it. -/
def typeBody (g : Grammar) (allowPlus : Bool) : Parse TypeExpr := do
  let binder ← binder? g (bound g)
  let tokens ← get
  if binder.isSome && !(atName tokens || atWords ["fn", "unsafe", "extern"] tokens ||
      atPathKeyword tokens) then failure
  else if atGroup .paren tokens then parenType g allowPlus
  else if atWords ["fn", "unsafe", "extern"] tokens then
    return .other (binder.getD [] ++ (← functionType g))
  else if atBuiltin tokens then
    builtin
    return .other []
  else if atPathStart tokens then pathType g allowPlus binder
  else if ← word? "dyn" then
    let hasStar ← sign? "*"
    let parts ← objectBounds g allowPlus false false
    return .other (if hasStar then [] else parts)
  else if atGroup .bracket tokens then
    inside .bracket (do
      let element ← g.type true
      if ← sign? ";" then
        let length ← g.expr true
        return .sequence (element.parts ++ [.expr length])
      else return .sequence element.parts)
  else if ← sign? "*" then
    if !(← word? "const") then word "mut"
    return .other (← g.type false).parts
  else if ← sign? "&" then
    let _ ← lifetime?
    let _ ← word? "mut"
    return .reference (← g.type false)
  else if ← sign? "!" then return .other []
  else if ← word? "impl" then return .other (← objectBounds g allowPlus true true)
  else if ← word? "_" then return .other []
  else if atLifetime tokens then return .other (← objectBounds g true false false)
  else failure

/-! ## Generics -/

/-- Read one parameter of the generics of an item, which may be left without a name. -/
def itemParam (g : Grammar) : Parse (List Part) := do
  let attrs ← outerAttributes g
  if ← word? "_" then return attributeParts attrs
  else return attributeParts attrs ++ (← paramRest g (bound g))

/-- Read optional generic parameters: whether there are any, and their parts. -/
def generics (g : Grammar) : Parse (Bool × List Part) := do
  if ← sign? "<" then
    let params ← separated (atSign ">") "," (itemParam g)
    sign ">"
    return (!params.isEmpty, params.flatten)
  else return (false, [])

/-- Whether a list of where-predicates, or the bounds of one, ends here. -/
def atWhereEnd (tokens : List Token) : Bool :=
  tokens.isEmpty || atGroup .brace tokens || atSign "," tokens || atSign ";" tokens ||
    atColon tokens || atSign "=" tokens

/-- Read one where-predicate. -/
def wherePredicate (g : Grammar) : Parse (List Part) := do
  if atLifetime (← get) && second (atSign ":") (← get) then
    lifetime
    sign ":"
    let _ ← boundList atWhereEnd lifetime
    return []
  else
    let binder ← binder? g (bound g)
    let type ← g.type true
    sign ":"
    let bounds ← boundList atWhereEnd (bound g)
    return binder.getD [] ++ type.parts ++ bounds.flatten

/-- Read where-predicates with commas between them, until something else comes next. -/
def wherePredicates (g : Grammar) : Nat → Parse (List Part)
  | 0 => failure
  | fuel + 1 => do
      if atWhereEnd (← get) then return []
      else
        let first ← wherePredicate g
        if ← sign? "," then
          let rest ← wherePredicates g fuel
          return first ++ rest
        else return first

/-- Read an optional where-clause, which has no generic parameters of its own. -/
def whereClause (g : Grammar) : Parse (List Part) := do
  if ← word? "where" then
    if atGenericParams (← get) then failure
    else wherePredicates g ((← get).length + 1)
  else return []

end AnnotatedApi.Source
