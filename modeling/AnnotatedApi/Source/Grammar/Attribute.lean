import AnnotatedApi.Source.Grammar.Basic

/-! # Attributes, visibilities and macro calls

The small parts of the grammar that occur nearly everywhere. -/

namespace AnnotatedApi.Source

/-! ## Plain paths -/

/-- Read the segments of a plain path; a pair of colons is followed by another segment. -/
def plainSegments : Parse (List String) := do
  match readPlainPath (← get) with
  | some (segments, rest) => set rest; return segments
  | none => failure

/-- Read a plain path; tells whether it starts with a pair of colons. -/
def plainPath : Parse (Bool × List String) := do
  let isGlobal ← sign? "::"
  let segments ← plainSegments
  return (isGlobal, segments)

/-! ## Attributes -/

/-- Read the expression after the equals sign of an attribute: a literal that ends the attribute, or
any expression that does not start with an attribute. -/
def attributeValue (g : Grammar) : Parse Expr := do
  match readLiteralToken (← get) with
  | some (l, []) => set ([] : List Token); return .literal [] l
  | _ =>
      if atSign "#" (← get) && second (atGroup .bracket) (← get) then failure
      else g.expr true

/-- Read the inside of an attribute's brackets. -/
def attributeBody (g : Grammar) : Parse Attribute := do
  let (isGlobal, path) ←
    if ← word? "unsafe" then pure (false, ["unsafe"]) else plainPath
  if atAnyGroup (← get) then
    let tokens ← groupTokens
    return { isGlobal, path, form := .list tokens }
  else if ← sign? "=" then
    let value ← attributeValue g
    return { isGlobal, path, form := .value value }
  else return { isGlobal, path, form := .bare }

/-- Read an attribute of what follows. -/
def outerAttribute (g : Grammar) : Parse Attribute := do
  sign "#"
  inside .bracket (attributeBody g)

/-- Read an attribute of what it stands in. -/
def innerAttribute (g : Grammar) : Parse Attribute := do
  sign "#"
  sign "!"
  inside .bracket (attributeBody g)

/-- Read the attributes of what follows. -/
def outerAttributes (g : Grammar) : Parse (List Attribute) :=
  readUntil (fun tokens => !atSign "#" tokens) (outerAttribute g)

/-- Read the attributes of what they stand in. -/
def innerAttributes (g : Grammar) : Parse (List Attribute) :=
  readUntil (fun tokens => !(atSign "#" tokens && second (atSign "!") tokens)) (innerAttribute g)

/-! ## Visibilities -/

/-- Whether the inside of parentheses after `pub` restricts the visibility, and to a valid place. -/
def restrictsVisibility (tokens : List Token) : Bool :=
  if atWords ["crate", "self", "super"] tokens then tokens.length == 1
  else if atWord "in" tokens then
    match plainPath.run (tokens.drop 1) with
    | some (_, []) => true
    | _ => false
  else false

/-- Read an optional visibility; tells whether there was one. -/
def visibility : Parse Bool := do
  if ← word? "pub" then
    match ← get with
    | .group .paren tokens :: rest =>
        if atWord "in" tokens && !restrictsVisibility tokens then failure
        if restrictsVisibility tokens then set rest
        return true
    | _ => return true
  else return false

/-! ## Macro calls -/

/-- Whether a path may be that of a macro call: the call's sign comes next and no comparison. -/
def atBang (tokens : List Token) : Bool :=
  atSign "!" tokens && !atSign "!=" tokens

/-- Read the sign and the tokens of a macro call; tells whether they stand in braces. -/
def macroRest : Parse Bool := do
  sign "!"
  anyGroup

end AnnotatedApi.Source
