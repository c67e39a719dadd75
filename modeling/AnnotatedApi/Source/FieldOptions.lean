import AnnotatedApi.Source.Parser

/-! # Options of fields

The attributes `serde` and `derive` hold entries with commas between them: a path, and what belongs
to it. Reading stops at the first entry that is not well-formed, and what was read before counts. -/

namespace AnnotatedApi.Source

/-! ## Entries -/

/-- The path of an entry. -/
structure EntryPath where
  isGlobal : Bool
  segments : List String

/-- Whether the path is the single word. -/
def EntryPath.isWord (word : String) (path : EntryPath) : Bool :=
  !path.isGlobal && path.segments == [word]

/-- Read the segments of a path after its first one. -/
def entrySegments : Nat → Parse (List String)
  | 0 => failure
  | fuel + 1 => do
      if ← sign? "::" then
        let first ← anyName
        let rest ← entrySegments fuel
        return first :: rest
      else return []

/-- Read the path of an entry; keywords count as names. -/
def entryPath : Parse EntryPath := do
  let isGlobal ← sign? "::"
  let first ← anyName
  let rest ← entrySegments ((← get).length + 1)
  return { isGlobal, segments := first :: rest }

/-- Read entries up to the first that is not well-formed; tells whether all are. `body` reads what
belongs to the entry of a path. -/
def entriesFrom (body : EntryPath → Parse α) : Nat → List Token → List α × Bool
  | 0, _ => ([], false)
  | fuel + 1, tokens =>
      match (entryPath >>= body).run tokens with
      | none => ([], false)
      | some (entry, rest) =>
          match rest with
          | [] => ([entry], true)
          | comma :: rest =>
              if !comma.isSign ',' then ([entry], false)
              else if rest.isEmpty then ([entry], true)
              else
                let (entries, isComplete) := entriesFrom body fuel rest
                (entry :: entries, isComplete)

/-- Read the entries of tokens. -/
def entries (body : EntryPath → Parse α) (tokens : List Token) : List α × Bool :=
  entriesFrom body (tokens.length + 1) tokens

/-- The entries of an attribute that has its tokens between delimiters, up to the first that is not
well-formed. -/
def Attribute.entries (body : Grammar → EntryPath → Parse α) (a : Attribute) : List α :=
  match a.form with
  | .list [] => []
  | .list tokens => (Source.entries (body (.forTokens tokens)) tokens).1
  | _ => []

/-! ## Options of serialization -/

/-- One option of a field. -/
inductive FieldOption where
  | rename (name : String)
  | skip
  /-- An option that does not change how the field appears. -/
  | other
  deriving DecidableEq, Repr

/-- Skip the value of an option that is not looked at. -/
def skipValue (g : Grammar) : Parse Unit := do
  if ← sign? "=" then
    let _ ← g.expr true

/-- Read what belongs to an option. -/
def fieldOptionBody (g : Grammar) (path : EntryPath) : Parse FieldOption := do
  if path.isWord "rename" then
    sign "="
    let l ← literal
    match l.asText? with
    | some name => return .rename name
    | none => failure
  else if path.isWord "skip" || path.isWord "skip_serializing" then return .skip
  else
    let tokens ← get
    if atSign "=" tokens then
      skipValue g
      return .other
    else
      match tokens with
      | .group .paren inner :: rest =>
          if (entries (fun _ => skipValue g) inner).2 then
            set rest
            return .other
          else failure
      | _ => return .other

/-- How a field appears where values of its struct are written. -/
structure FieldOptions where
  /-- The name it goes by there. -/
  rename : Option String := none
  /-- Whether it is left out. -/
  skip : Bool := false
  deriving DecidableEq, Repr

/-- Apply an option; a later name replaces an earlier one. -/
def FieldOptions.apply (options : FieldOptions) : FieldOption → FieldOptions
  | .rename name => { options with rename := some name }
  | .skip => { options with skip := true }
  | .other => options

/-- The options that the attributes of a field spell. -/
def FieldOptions.ofAttributes (attrs : List Attribute) : FieldOptions :=
  ((attrs.filter (Attribute.isNamed "serde")).flatMap
    (Attribute.entries fieldOptionBody)).foldl FieldOptions.apply {}

/-! ## Derived traits -/

/-- Whether an attribute derives the trait of the name, under whatever path. -/
def Attribute.derives (name : String) (a : Attribute) : Bool :=
  a.isNamed "derive" &&
    (a.entries fun _ path => pure path.segments).any (·.getLast? == some name)

end AnnotatedApi.Source
