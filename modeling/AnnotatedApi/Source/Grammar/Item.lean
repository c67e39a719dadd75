import AnnotatedApi.Source.Grammar.Statement

/-! # Items

Items are read for their attributes and names, the fields of structs, the methods of implementation
blocks, and the parts within them. Some forms are accepted although they stand for nothing: a
function without a body, a visible implementation block, or a constant without a value. -/

namespace AnnotatedApi.Source

/-! ## Functions -/

/-- Whether the tokens start a function signature: `fn` after its optional qualifiers. -/
def atSignature (allowSafe : Bool) (tokens : List Token) : Bool :=
  let tokens := if atWord "const" tokens then tokens.drop 1 else tokens
  let tokens := if atWord "async" tokens then tokens.drop 1 else tokens
  let tokens :=
    if atWord "unsafe" tokens || (allowSafe && atWord "safe" tokens) then tokens.drop 1
    else tokens
  let tokens :=
    if atWord "extern" tokens then
      let tokens := tokens.drop 1
      if atText tokens then tokens.drop 1 else tokens
    else tokens
  atWord "fn" tokens

/-- Read `self` as a parameter, by reference or with a type; it does not start a path. -/
def receiver (g : Grammar) : Parse (List Part) := do
  let isReference ← sign? "&"
  if isReference then
    let _ ← lifetime?
  let _ ← word? "mut"
  word "self"
  if atSign "::" (← get) then failure
  else if !isReference && (← sign? ":") then return (← g.type true).parts
  else return []

/-- Read the parameters of a function. Only the first may be `self`, and dots end them. -/
def functionParams (g : Grammar) (isFirst : Bool) : Nat → Parse (List Part)
  | 0 => failure
  | fuel + 1 => do
      if (← get).isEmpty then return []
      else
        let attrs := attributeParts (← outerAttributes g)
        if ← sign? "..." then
          if !(← get).isEmpty then sign ","
          return attrs
        else
          let tokens ← get
          match (receiver g).run tokens with
          | some (parts, rest) =>
              if !isFirst then failure
              else
                set rest
                continueAfter (attrs ++ parts) fuel
          | none =>
              if atName tokens && second (atSign "<") tokens then
                let type ← g.type true
                continueAfter (attrs ++ type.parts) fuel
              else
                let target ← g.pattern
                sign ":"
                if ← sign? "..." then
                  if !(← get).isEmpty then sign ","
                  return attrs ++ target.parts
                else
                  let type ← g.type true
                  continueAfter (attrs ++ target.parts ++ type.parts) fuel
where
  /-- Go on after a parameter. -/
  continueAfter (parts : List Part) (fuel : Nat) : Parse (List Part) := do
    if (← get).isEmpty then return parts
    else
      sign ","
      let rest ← functionParams g false fuel
      return parts ++ rest

/-- Read the signature of a function: whether it is said to be safe, its name and its parts. -/
def signature (g : Grammar) (allowSafe : Bool) : Parse (Bool × String × List Part) := do
  let _ ← word? "const"
  let _ ← word? "async"
  let isSafe ← if allowSafe then word? "safe" else pure false
  if !isSafe then
    let _ ← word? "unsafe"
  interface?
  word "fn"
  let own ← name
  let (_, params) ← generics g
  let inputs ← inside .paren (do functionParams g true ((← get).length + 1))
  let output ← if ← sign? "->" then (do return (← g.type true).parts) else pure []
  let conditions ← whereClause g
  return (isSafe, own, params ++ conditions ++ inputs ++ output)

/-- Read a function after its attributes and visibility; nothing stands for one without a body. -/
def function? (g : Grammar) (attrs : List Attribute) :
    Parse (Option (FunctionItem × List Part)) := do
  let (_, own, head) ← signature g false
  if ← sign? ";" then return none
  else
    let (inner, body) ← attributedBlock g true
    let attrs := attrs ++ inner
    return some ({ attrs, name := own }, attributeParts attrs ++ head ++ body)

/-! ## Structs, unions and enumerations -/

/-- Read fields with names that nest at most `fuel` levels: a field without a name of its own may
hold fields, which are kept as mere text. -/
def namedFieldsFrom (g : Grammar) : Nat → Parse (List (Field × List Part))
  | 0 => failure
  | fuel + 1 =>
      inside .brace (commaList (do
        let attrs ← outerAttributes g
        let _ ← visibility
        let isNameless := atWord "_" (← get)
        let own ← if isNameless then anyName else name
        sign ":"
        let tokens ← get
        let type ←
          if isNameless &&
              (atWord "struct" tokens || (atWord "union" tokens && second (atGroup .brace) tokens))
          then do
            skip 1
            let _ ← namedFieldsFrom g fuel
            pure (.other [])
          else g.type true
        return ({ attrs, name := some own, type }, attributeParts attrs ++ type.parts)))

/-- Read fields in braces. -/
def namedFields (g : Grammar) : Parse (List (Field × List Part)) := do
  namedFieldsFrom g (Token.weightOfList (← get) + 1)

/-- Read a field of a tuple. -/
def tupleField (g : Grammar) : Parse (Field × List Part) := do
  let attrs ← outerAttributes g
  let _ ← visibility
  let type ← g.type true
  return ({ attrs, name := none, type }, attributeParts attrs ++ type.parts)

/-- Read fields in parentheses. -/
def tupleFields (g : Grammar) : Parse (List (Field × List Part)) :=
  inside .paren (commaList (tupleField g))

/-- Read what follows the generics of a struct: its fields, with the parts of a where-clause. -/
def structBody (g : Grammar) : Parse (List Part × List (Field × List Part)) := do
  let hasWhere := atWord "where" (← get)
  let conditions ← whereClause g
  let tokens ← get
  if !hasWhere && atGroup .paren tokens then
    let fields ← tupleFields g
    let conditions ← whereClause g
    sign ";"
    return (conditions, fields)
  else if atGroup .brace tokens then return (conditions, ← namedFields g)
  else
    sign ";"
    return (conditions, [])

/-- Read a struct after its attributes. -/
def structItem (g : Grammar) (attrs : List Attribute) : Parse Item := do
  let _ ← visibility
  word "struct"
  let own ← name
  let (isGeneric, params) ← generics g
  let (conditions, fields) ← structBody g
  return .struct { attrs, name := own, isGeneric, fields := fields.map Prod.fst }
    (attributeParts attrs ++ params ++ conditions ++ fields.flatMap Prod.snd)

/-- Read a union after its attributes. -/
def unionItem (g : Grammar) (attrs : List Attribute) : Parse Item := do
  let _ ← visibility
  word "union"
  let _ ← name
  let (_, params) ← generics g
  let conditions ← whereClause g
  let fields ← namedFields g
  return .other (attributeParts attrs ++ params ++ conditions ++ fields.flatMap Prod.snd)

/-- Read a variant of an enumeration. -/
def enumVariant (g : Grammar) : Parse (List Part) := do
  let attrs ← outerAttributes g
  let _ ← visibility
  let _ ← name
  let tokens ← get
  let fields ←
    if atGroup .brace tokens then namedFields g
    else if atGroup .paren tokens then tupleFields g
    else pure []
  let value : List Part ← if ← sign? "=" then (do return [.expr (← g.expr true)]) else pure []
  return attributeParts attrs ++ fields.flatMap Prod.snd ++ value

/-- Read an enumeration after its attributes. -/
def enumItem (g : Grammar) (attrs : List Attribute) : Parse Item := do
  let _ ← visibility
  word "enum"
  let _ ← name
  let (_, params) ← generics g
  let conditions ← whereClause g
  let variants ← inside .brace (commaList (enumVariant g))
  return .other (attributeParts attrs ++ params ++ conditions ++ variants.flatten)

/-! ## Constants, types, imports -/

/-- Read a name or an underscore. -/
def nameOrUnderscore : Parse Unit := do
  if !(← word? "_") then
    let _ ← name

/-- Read a constant after its visibility. It stands for something only when it has a value, and
neither parameters nor conditions. -/
def constRest (g : Grammar) : Parse (Option (List Part)) := do
  word "const"
  nameOrUnderscore
  let hasAngles := atSign "<" (← get)
  let _ ← generics g
  sign ":"
  let type ← g.type true
  let value : Option Expr ← if ← sign? "=" then (do return some (← g.expr true)) else pure none
  let hasWhere := atWord "where" (← get)
  let _ ← whereClause g
  sign ";"
  match value with
  | some value =>
      if hasAngles || hasWhere then return none else return some (type.parts ++ [.expr value])
  | none => return none

/-- Read a static variable after its attributes. -/
def staticItem (g : Grammar) (attrs : List Attribute) : Parse Item := do
  let _ ← visibility
  word "static"
  let _ ← word? "mut"
  let _ ← name
  if ← sign? "=" then
    let _ ← g.expr true
    sign ";"
    return .other []
  else
    sign ":"
    let type ← g.type true
    if ← sign? ";" then return .other []
    else
      sign "="
      let value ← g.expr true
      sign ";"
      return .other (attributeParts attrs ++ type.parts ++ [.expr value])

/-- Whether the bounds of an associated type end here. -/
def atTypeBoundsEnd (tokens : List Token) : Bool :=
  atWord "where" tokens || atSign "=" tokens || atSign ";" tokens

/-- Where the where-clause of a type definition stands: before its meaning, after it, or in either
place. -/
inductive WherePlace where
  | before
  | after
  | both
  deriving DecidableEq

/-- A type definition that was read. -/
structure TypeDefinition where
  hasBounds : Bool
  hasMeaning : Bool
  parts : List Part

/-- Read a type definition from its word on. -/
def typeDefinition (g : Grammar) (place : WherePlace) : Parse TypeDefinition := do
  word "type"
  let _ ← name
  let (_, params) ← generics g
  let hasBounds ← sign? ":"
  let bounds ← if hasBounds then boundList atTypeBoundsEnd (bound g) else pure []
  let hasWhere := place != .after && atWord "where" (← get)
  let before ← if hasWhere then whereClause g else pure []
  let hasMeaning ← sign? "="
  let meaning ← if hasMeaning then (do return (← g.type true).parts) else pure []
  let after ← if place != .before && !hasWhere then whereClause g else pure []
  sign ";"
  return {
    hasBounds
    hasMeaning
    parts := params ++ before ++ after ++ bounds.flatten ++ meaning }

/-- Read the tree of names that an import brings in. Where `allowColons` says so, a tree in braces
may start with colons; tells whether none does. -/
def useTreeBody (g : Grammar) (allowColons : Bool) : Parse Bool := do
  let tokens ← get
  if atName tokens || atWords ["self", "super", "crate", "try"] tokens then
    skip 1
    if ← sign? "::" then g.useTree false
    else if ← word? "as" then
      nameOrUnderscore
      return true
    else return true
  else if ← sign? "*" then return true
  else
    let trees ← inside .brace (commaList (do
      let hasColons ← if allowColons then sign? "::" else pure false
      let isPlain ← g.useTree (allowColons && !hasColons)
      return isPlain && !hasColons))
    return trees.all id

/-- Read an import after its attributes. -/
def useItem (g : Grammar) (attrs : List Attribute) : Parse Item := do
  let _ ← visibility
  word "use"
  let hasColons ← sign? "::"
  let isPlain ← g.useTree (!hasColons)
  sign ";"
  return .other (if isPlain then attributeParts attrs else [])

/-- Read the import of a crate after its attributes. -/
def crateItem (attrs : List Attribute) : Parse Item := do
  let _ ← visibility
  word "extern"
  word "crate"
  if !(← word? "self") then
    let _ ← name
  if ← word? "as" then nameOrUnderscore
  sign ";"
  return .other (attributeParts attrs)

/-- Read a macro call as an item; calls outside braces end with a semicolon. Where `allowName` says
so, a name may stand before the tokens. -/
def macroItem (allowName : Bool) : Parse Unit := do
  let _ ← plainPath
  sign "!"
  if allowName && (atWord "try" (← get) || atName (← get)) then skip 1
  let hasBraces ← anyGroup
  if !hasBraces then sign ";"

/-- Read a macro definition from its word on. -/
def macroDefinition : Parse Item := do
  word "macro"
  let _ ← name
  if atGroup .paren (← get) then skip 1
  expect (atGroup .brace)
  skip 1
  return .other []

/-! ## Foreign blocks and traits -/

/-- Whether a macro call can start here that stands among items. -/
def atMacroItem (tokens : List Token) : Bool :=
  atName tokens || atWords ["self", "super", "crate"] tokens || atSign "::" tokens

/-- Read an item of a foreign block. What says that it is safe or unsafe, or has a body, a value, a
meaning or bounds, is kept as mere text. -/
def foreignMember (g : Grammar) : Parse (List Part) := do
  let attrs := attributeParts (← outerAttributes g)
  let start ← get
  let hasVisibility ← visibility
  let tokens ← get
  if atSignature true tokens then
    let (isSafe, _, head) ← signature g true
    if ← sign? ";" then return if isSafe then [] else attrs ++ head
    else
      let _ ← attributedBlock g true
      return []
  else if atWord "static" tokens ||
      (atWords ["unsafe", "safe"] tokens && second (atWord "static") tokens) then
    let isMarked := !atWord "static" tokens
    if isMarked then skip 1
    word "static"
    let _ ← word? "mut"
    let _ ← name
    sign ":"
    let type ← g.type true
    let hasValue ← sign? "="
    if hasValue then
      let _ ← g.expr true
    sign ";"
    return if isMarked || hasValue then [] else attrs ++ type.parts
  else if atWord "type" tokens then
    let definition ← typeDefinition g .both
    return if definition.hasBounds || definition.hasMeaning then [] else attrs ++ definition.parts
  else if !hasVisibility && atMacroItem tokens then
    set start
    macroItem false
    return attrs
  else failure

/-- Read a foreign block after its attributes. -/
def foreignItem (g : Grammar) (attrs : List Attribute) : Parse Item := do
  let _ ← word? "unsafe"
  word "extern"
  if atText (← get) then skip 1
  let (inner, members) ← inside .brace (do
    let inner ← innerAttributes g
    let members ← toEnd (foreignMember g)
    return (inner, members))
  return .other (attributeParts (attrs ++ inner) ++ members.flatten)

/-- Read a constant of a trait from its word on; one with parameters or conditions is kept as mere
text. -/
def traitConst (g : Grammar) (attrs : List Part) : Parse (List Part) := do
  word "const"
  nameOrUnderscore
  let hasAngles := atSign "<" (← get)
  let _ ← generics g
  sign ":"
  let type ← g.type true
  let value : List Part ← if ← sign? "=" then (do return [.expr (← g.expr true)]) else pure []
  let hasWhere := atWord "where" (← get)
  let _ ← whereClause g
  sign ";"
  return if hasAngles || hasWhere then [] else attrs ++ type.parts ++ value

/-- Read an item of a trait; one that is visible or a default is kept as mere text. -/
def traitMember (g : Grammar) : Parse (List Part) := do
  let attrs := attributeParts (← outerAttributes g)
  let hasVisibility ← visibility
  let isDefault ← word? "default"
  let tokens ← get
  let parts ←
    if atSignature false tokens then do
      let (_, _, head) ← signature g false
      if ← sign? ";" then pure (attrs ++ head)
      else do
        let (inner, body) ← attributedBlock g true
        pure (attrs ++ attributeParts inner ++ head ++ body)
    else if atWord "const" tokens then traitConst g attrs
    else if atWord "type" tokens then do
      let definition ← typeDefinition g .after
      pure (attrs ++ definition.parts)
    else if !hasVisibility && !isDefault && atMacroItem tokens then do
      macroItem false
      pure attrs
    else failure
  return if hasVisibility || isDefault then [] else parts

/-- Read the supertraits after a trait's colon. -/
def supertraits (g : Grammar) : Nat → Parse (List Part)
  | 0 => failure
  | fuel + 1 => do
      let tokens ← get
      if atWord "where" tokens || atGroup .brace tokens then return []
      else
        let first ← bound g
        let tokens ← get
        if atWord "where" tokens || atGroup .brace tokens then return first
        else
          sign "+"
          let rest ← supertraits g fuel
          return first ++ rest

/-- Read a trait or a trait alias after its attributes. -/
def traitItem (g : Grammar) (attrs : List Attribute) : Parse Item := do
  let _ ← visibility
  let isUnsafe ← word? "unsafe"
  let isAuto ← word? "auto"
  word "trait"
  let _ ← name
  let (_, params) ← generics g
  if !isUnsafe && !isAuto && (← sign? "=") then
    let bounds ← boundList (fun tokens => atWord "where" tokens || atSign ";" tokens)
      (do return (← boundOf g false false).2)
    let conditions ← whereClause g
    sign ";"
    return .other (attributeParts attrs ++ params ++ conditions ++ bounds.flatten)
  else
    let bounds ← if ← sign? ":" then do supertraits g ((← get).length + 1) else pure []
    let conditions ← whereClause g
    let (inner, members) ← inside .brace (do
      let inner ← innerAttributes g
      let members ← toEnd (traitMember g)
      return (inner, members))
    return .other (attributeParts (attrs ++ inner) ++ params ++ conditions ++ bounds ++
      members.flatten)

/-! ## Implementation blocks -/

/-- Read an item of an implementation block: its parts, and the method if it is one. -/
def implMember (g : Grammar) : Parse (List Part × Option FunctionItem) := do
  let attrs ← outerAttributes g
  let hasVisibility ← visibility
  let isDefault ← if atWord "default" (← get) && !second (atSign "!") (← get) then word? "default"
    else pure false
  let tokens ← get
  if atSignature false tokens then
    match ← function? g attrs with
    | some (method, parts) => return ([.function method.name parts], some method)
    | none => return ([], none)
  else if atWord "const" tokens then
    match ← constRest g with
    | some parts => return (attributeParts attrs ++ parts, none)
    | none => return ([], none)
  else if atWord "type" tokens then
    let definition ← typeDefinition g .after
    if definition.hasBounds || !definition.hasMeaning then return ([], none)
    else return (attributeParts attrs ++ definition.parts, none)
  else if !hasVisibility && !isDefault && atMacroItem tokens then
    macroItem false
    return (attributeParts attrs, none)
  else failure

/-- Read an implementation block after its attributes. -/
def implementation (g : Grammar) (attrs : List Attribute) : Parse Item := do
  let hasVisibility ← visibility
  let _ ← word? "default"
  let _ ← word? "unsafe"
  word "impl"
  let params ← if atGenericParams (← get) then (do return (← generics g).2) else pure []
  let isConst :=
    atWord "const" (← get) || (atSign "?" (← get) && second (atWord "const") (← get))
  if isConst then
    let _ ← sign? "?"
    word "const"
  let isNegative := atSign "!" (← get) && !second (atGroup .brace) (← get)
  if isNegative then skip 1
  let first ← g.type true
  let hasTrait ← word? "for"
  if isNegative && !hasTrait then failure
  let selfType ← if hasTrait then g.type true else pure first
  let conditions ← whereClause g
  let (inner, members) ← inside .brace (do
    let inner ← innerAttributes g
    let members ← toEnd (implMember g)
    return (inner, members))
  let traitName : Option String :=
    match first with
    | .path start _ segments =>
        if hasTrait && start != .qualified then segments.getLast?.map PathSegment.name else none
    | _ => none
  if hasVisibility || isConst || (hasTrait && traitName.isNone) then return .other []
  else
    let attrs := attrs ++ inner
    let traitParts := if hasTrait then first.parts else []
    return .implementation
      { attrs, traitName, selfType, methods := members.filterMap Prod.snd }
      (attributeParts attrs ++ params ++ conditions ++ traitParts ++ selfType.parts ++
        members.flatMap Prod.fst)

/-! ## Modules and all items -/

/-- Read a module after its attributes. -/
def moduleItem (g : Grammar) (attrs : List Attribute) : Parse Item := do
  let _ ← visibility
  let _ ← word? "unsafe"
  word "mod"
  let own ← if atWord "try" (← get) then anyName else name
  if ← sign? ";" then return .module attrs own none (attributeParts attrs)
  else
    let (inner, items) ← inside .brace (do
      let inner ← innerAttributes g
      let items ← toEnd g.item
      return (inner, items))
    let attrs := attrs ++ inner
    return .module attrs own (some items) (attributeParts attrs ++ items.flatMap Item.parts)

/-- Read an item after its attributes; `after` holds the tokens after its visibility. -/
def itemRest (g : Grammar) (attrs : List Attribute) (hasVisibility : Bool)
    (after : List Token) : Parse Item := do
  if atSignature false after then
    let _ ← visibility
    match ← function? g attrs with
    | some (f, parts) => return .function f [.function f.name parts]
    | none => return .other []
  else if atWord "extern" after then
    if second (atWord "crate") after then crateItem attrs
    else if second (atGroup .brace) after || (second atText after && third (atGroup .brace) after)
    then
      foreignItem g attrs
    else failure
  else if atWord "use" after then useItem g attrs
  else if atWord "static" after then staticItem g attrs
  else if atWord "const" after then
    let _ ← visibility
    match ← constRest g with
    | some parts => return .other (attributeParts attrs ++ parts)
    | none => return .other []
  else if atWord "unsafe" after then
    if second (atWord "trait") after ||
        (second (atWord "auto") after && third (atWord "trait") after) then traitItem g attrs
    else if second (atWord "impl") after then implementation g attrs
    else if second (atWord "extern") after then foreignItem g attrs
    else if second (atWord "mod") after then moduleItem g attrs
    else failure
  else if atWord "mod" after then moduleItem g attrs
  else if atWord "type" after then
    let _ ← visibility
    let definition ← typeDefinition g .before
    if definition.hasBounds || !definition.hasMeaning then return .other []
    else return .other (attributeParts attrs ++ definition.parts)
  else if atWord "struct" after then structItem g attrs
  else if atWord "enum" after then enumItem g attrs
  else if atWord "union" after && second atName after then unionItem g attrs
  else if atWord "trait" after || (atWord "auto" after && second (atWord "trait") after) then
    traitItem g attrs
  else if atWord "impl" after || (atWord "default" after && !second (atSign "!") after) then
    implementation g attrs
  else if atWord "macro" after then
    let _ ← visibility
    macroDefinition
  else if !hasVisibility && atMacroItem after then
    macroItem true
    return .other (attributeParts attrs)
  else failure

/-- Read an item with its attributes. -/
def itemBody (g : Grammar) : Parse Item := do
  let attrs ← outerAttributes g
  match visibility.run (← get) with
  | some (hasVisibility, after) => itemRest g attrs hasVisibility after
  | none => failure

end AnnotatedApi.Source
