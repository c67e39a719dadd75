import AnnotatedApi.Members
import AnnotatedApi.Yaml.Lexer

/-! # Reading YAML texts

The tokens of a text are read into data. Anchors name nodes, which aliases stand for later; tags say
what a scalar is. A text holds at most one document; one without any stands for nothing. -/

namespace AnnotatedApi.Yaml

/-! ## Parsers of tokens -/

/-- What is read from, and known on the way: the tokens left, the numbers that names stand for, the
numbered nodes, the last one to start first, and what the handles of tags stand for. -/
structure Reading where
  tokens : List Token
  names : List (String × Nat) := []
  nodes : List (Nat × Datum) := []
  handles : List (String × List UInt8) := []

/-- A parser of tokens. -/
abbrev Parse : Type → Type := StateT Reading Option

/-- The next token. -/
def next? : Parse (Option Token) := do
  return (← get).tokens.head?

/-- Move past a token. -/
def advance : Parse Unit :=
  modify fun r => { r with tokens := r.tokens.drop 1 }

/-- Move past a token that has to be the given one. -/
def expect (token : Token) : Parse Unit := do
  if (← next?) == some token then advance else failure

/-- Move past the given token if it comes next. -/
def take? (token : Token) : Parse Bool := do
  if (← next?) == some token then
    advance
    return true
  else return false

/-- Whether the text ends here or one of the given tokens comes next. -/
def atOneOf (tokens : List Token) : Parse Bool := do
  match ← next? with
  | some token => return tokens.contains token
  | none => return true

/-! ## Scalars and properties -/

/-- The datum of a node of which nothing is written. -/
def emptyNode : Datum := .scalar .plain none ""

/-- What the tags of the format start with. -/
def coreFront : String := "tag:yaml.org,2002:"

/-- What a tag says of a scalar. The text's own tags start with an exclamation mark, which is not
part of the name unless it stands alone. -/
def scalarTag (tag : List UInt8) : ScalarTag :=
  let name := tag.drop 1
  if tag.head? == some '!'.toUInt8 then
    match String.fromUTF8? ⟨(if name.isEmpty then tag else name).toArray⟩ with
    | some name => .own name
    | none => .nameless
  else if tag == textBytes (coreFront ++ "bool") then .bool
  else if tag == textBytes (coreFront ++ "int") then .int
  else if tag == textBytes (coreFront ++ "float") then .float
  else if tag == textBytes (coreFront ++ "null") then .null
  else .other

/-- The datum of a collection with an optional tag. -/
def collectionDatum (tag : Option ScalarTag) (datum : Datum) : Datum :=
  match tag with
  | some (.own _) => .tagged datum
  | _ => datum

/-- The handles that every text knows. -/
def defaultHandles : List (String × List UInt8) :=
  [("!", textBytes "!"), ("!!", textBytes coreFront)]

/-- The tag that a handle and a suffix make up. -/
def resolveTag (handle : String) (suffix : List UInt8) : Parse ScalarTag := do
  if handle == "" then return scalarTag suffix
  else
    match ((← get).handles ++ defaultHandles).find? fun entry => entry.1 == handle with
    | some (_, expansion) => return scalarTag (expansion ++ suffix)
    | none => failure

/-- Read an anchor. -/
def anchor? : Parse (Option String) := do
  match ← next? with
  | some (.anchor name) =>
      advance
      return some name
  | _ => return none

/-- Read a tag. -/
def tag? : Parse (Option ScalarTag) := do
  match ← next? with
  | some (.tag handle suffix) =>
      advance
      return some (← resolveTag handle suffix)
  | _ => return none

/-- Read an anchor and a tag, in either order. -/
def properties : Parse (Option String × Option ScalarTag) := do
  match ← anchor? with
  | some name => return (some name, ← tag?)
  | none =>
      let tag ← tag?
      if tag.isSome then return (← anchor?, tag) else return (none, none)

/-! ## Anchored nodes

The number of a node is how many names are known where it starts. So a name that is given again gets
the number that the next new name gets too; the last node to start with a number is the one that is
meant. -/

/-- Give a number to the node that starts here, if it has a name; yields how many numbered nodes
started before it. -/
def announce (name : Option String) : Parse (Option Nat) := do
  match name with
  | none => return none
  | some name =>
      let r ← get
      let number := r.names.length
      set { r with names := putMember name number r.names, nodes := (number, emptyNode) :: r.nodes }
      return some r.nodes.length

/-- Keep a node that has been announced. -/
def keep (place : Option Nat) (datum : Datum) : Parse Datum := do
  if let some place := place then
    modify fun r => { r with
      nodes := r.nodes.modify (r.nodes.length - 1 - place) fun node => (node.1, datum) }
  return datum

/-- The alias of a name, which has to be known. -/
def aliasOf (name : String) : Parse Datum := do
  match getMember? name (← get).names with
  | some number => return .alias number
  | none => failure

/-! ## Nodes -/

mutual

/-- Read a node. Block collections are read where `block` says; entries of a list without
indentation where `indentless` says. -/
def node (block indentless : Bool) : Nat → Parse Datum
  | 0 => failure
  | fuel + 1 => do
      match ← next? with
      | some (.alias name) =>
          advance
          aliasOf name
      | _ =>
          let (name, tag) ← properties
          match ← next? with
          | some (.scalar style text) =>
              advance
              keep (← announce name) (.scalar style tag text)
          | some .flowSequenceStart =>
              advance
              let place ← announce name
              let items ← flowItems true fuel
              keep place (collectionDatum tag (.list false items))
          | some .flowMappingStart =>
              advance
              let place ← announce name
              let members ← flowMembers true fuel
              keep place (collectionDatum tag (.record members))
          | token =>
              let place ← announce name
              if indentless && token == some .blockEntry then do
                let items ← indentlessItems fuel
                keep place (collectionDatum tag (.list false items))
              else if block && token == some .blockSequenceStart then do
                advance
                let items ← blockItems fuel
                keep place (collectionDatum tag (.list false items))
              else if block && token == some .blockMappingStart then do
                advance
                let members ← blockMembers fuel
                keep place (collectionDatum tag (.record members))
              else if name.isSome || tag.isSome then
                keep place (.scalar .plain tag "")
              else failure

/-- Read a node, or nothing where one of the tokens comes next. -/
def nodeUnless (stops : List Token) (block indentless : Bool) : Nat → Parse Datum
  | 0 => failure
  | fuel + 1 => do
      if ← atOneOf stops then return emptyNode else node block indentless fuel

/-- Read the entries of a block list up to its end. -/
def blockItems : Nat → Parse (List Datum)
  | 0 => failure
  | fuel + 1 => do
      if ← take? .blockEntry then
        let item ← nodeUnless [.blockEntry, .blockEnd] true false fuel
        let rest ← blockItems fuel
        return item :: rest
      else
        expect .blockEnd
        return []

/-- Read the entries of a list without indentation. -/
def indentlessItems : Nat → Parse (List Datum)
  | 0 => failure
  | fuel + 1 => do
      if ← take? .blockEntry then
        let item ← nodeUnless [.blockEntry, .key, .value, .blockEnd] true false fuel
        let rest ← indentlessItems fuel
        return item :: rest
      else return []

/-- Read the members of a block record up to its end. -/
def blockMembers : Nat → Parse (List (Datum × Datum))
  | 0 => failure
  | fuel + 1 => do
      if ← take? .key then
        let key ← nodeUnless [.key, .value, .blockEnd] true true fuel
        let value ←
          if ← take? .value then nodeUnless [.key, .value, .blockEnd] true true fuel
          else pure emptyNode
        let rest ← blockMembers fuel
        return (key, value) :: rest
      else
        expect .blockEnd
        return []

/-- Read the items between brackets up to the closing one. An item can be a record of one member,
whose key can be left out; the mark that then comes in its place is passed over. -/
def flowItems (isFirst : Bool) : Nat → Parse (List Datum)
  | 0 => failure
  | fuel + 1 => do
      if ← take? .flowSequenceEnd then return []
      else
        if !isFirst then expect .flowEntry
        if ← take? .flowSequenceEnd then return []
        else
          let item ←
            if ← take? .key then do
              let key ←
                if ← atOneOf [.value, .flowEntry, .flowSequenceEnd] then do
                  advance
                  pure emptyNode
                else node false false fuel
              let value ←
                if ← take? .value then nodeUnless [.flowEntry, .flowSequenceEnd] false false fuel
                else pure emptyNode
              pure (Datum.record [(key, value)])
            else node false false fuel
          let rest ← flowItems false fuel
          return item :: rest

/-- Read the members between braces up to the closing one. -/
def flowMembers (isFirst : Bool) : Nat → Parse (List (Datum × Datum))
  | 0 => failure
  | fuel + 1 => do
      if ← take? .flowMappingEnd then return []
      else
        if !isFirst then expect .flowEntry
        if ← take? .flowMappingEnd then return []
        else
          let member ←
            if ← take? .key then do
              let key ← nodeUnless [.value, .flowEntry, .flowMappingEnd] false false fuel
              let value ←
                if ← take? .value then nodeUnless [.flowEntry, .flowMappingEnd] false false fuel
                else pure emptyNode
              pure (key, value)
            else do
              let key ← node false false fuel
              pure (key, emptyNode)
          let rest ← flowMembers false fuel
          return member :: rest

end

/-! ## Documents -/

/-- Read directives: at most one version, and each handle once. -/
def directives (hasVersion : Bool) : Nat → Parse Bool
  | 0 => failure
  | fuel + 1 => do
      match ← next? with
      | some (.versionDirective major minor) =>
          if hasVersion || major != 1 || (minor != 1 && minor != 2) then failure
          advance
          let _ ← directives true fuel
          return true
      | some (.tagDirective handle expansion) =>
          if (← get).handles.any fun entry => entry.1 == handle then failure
          advance
          modify fun r => { r with handles := (handle, expansion) :: r.handles }
          let _ ← directives hasVersion fuel
          return true
      | _ => return false

/-- Move past ends of documents. -/
def skipDocumentEnds : Nat → Parse Unit
  | 0 => pure ()
  | fuel + 1 => do
      if ← take? .documentEnd then skipDocumentEnds fuel

/-- Read the only document of a text. -/
def document (fuel : Nat) : Parse Datum := do
  if (← next?).isNone then return emptyNode
  else
    let hasDirectives ← directives false fuel
    let isExplicit ← take? .documentStart
    if hasDirectives && !isExplicit then failure
    let isEmpty ←
      if isExplicit then do
        match ← next? with
        | some (.versionDirective _ _) => pure true
        | some (.tagDirective _ _) => pure true
        | _ => atOneOf [.documentStart, .documentEnd]
      else pure false
    let datum ← if isEmpty then pure emptyNode else node true false fuel
    skipDocumentEnds fuel
    if (← next?).isNone then return datum else failure

/-- The levels of nesting that may be read. -/
def maxDepth : Nat := 128

/-- The number of aliases that may be followed for each scalar, alias, start and end of a text. -/
def jumpsPerNode : Nat := 100

/-- Read a text. -/
def parse? (text : String) : Option DataFile := do
  let tokens ← tokens? text
  let (root, r) ← (document (4 * tokens.length + 16)).run { tokens := tokens }
  return { root, nodes := r.nodes, maxDepth, maxJumps := root.size * jumpsPerNode }

end AnnotatedApi.Yaml
