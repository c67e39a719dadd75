import AnnotatedApi.Annotation.Declaration

/-! # Building declarations from arguments

For every kind of annotation, the arguments it takes and what each of them sets. Keywords have
spellings with underscores and with capitals. Every reader goes through the arguments from the left;
a later argument replaces what an earlier one set, and lists of properties and of content grow. -/

namespace AnnotatedApi

/-- Change a declaration by each argument in order, until one is refused. -/
def applyArgs (step : α → Arg → Except AnnotationError α) (decl : α) (args : List Arg) :
    Except AnnotationError α :=
  args.foldlM step decl

/-! ## Schema keywords -/

namespace SchemaAttrs

/-- Apply an argument; nothing when it is no schema keyword. -/
def set? (attrs : SchemaAttrs) (arg : Arg) : Except AnnotationError (Option SchemaAttrs) :=
  match arg.1 with
  | "type" => do return some { attrs with type := some (← arg.asText) }
  | "format" => do return some { attrs with format := some (← arg.asText) }
  | "description" => do return some { attrs with description := some (← arg.asText) }
  | "ref" => do return some { attrs with reference := some (← arg.asText) }
  | "reference" => do return some { attrs with reference := some (← arg.asText) }
  | "default" => .ok (some { attrs with default := some arg.asJson })
  | "example" => .ok (some { attrs with exampleValue := some arg.asJson })
  | "examples" => do return some { attrs with examples := some (← arg.asJsonList) }
  | "nullable" => do return some { attrs with nullable := some (← arg.asBool) }
  | "enum" => do return some { attrs with enum := some (← arg.asJsonList) }
  | "min_length" => do return some { attrs with minLength := some (← arg.asNat) }
  | "minLength" => do return some { attrs with minLength := some (← arg.asNat) }
  | "max_length" => do return some { attrs with maxLength := some (← arg.asNat) }
  | "maxLength" => do return some { attrs with maxLength := some (← arg.asNat) }
  | "minimum" => do return some { attrs with minimum := some (← arg.asNumber) }
  | "maximum" => do return some { attrs with maximum := some (← arg.asNumber) }
  | "pattern" => do return some { attrs with pattern := some (← arg.asText) }
  | "read_only" => do return some { attrs with readOnly := some (← arg.asBool) }
  | "readOnly" => do return some { attrs with readOnly := some (← arg.asBool) }
  | "write_only" => do return some { attrs with writeOnly := some (← arg.asBool) }
  | "writeOnly" => do return some { attrs with writeOnly := some (← arg.asBool) }
  | _ => .ok none

/-- Whether one of the keywords that a parameter takes directly is set. -/
def hasShortcut (attrs : SchemaAttrs) : Bool :=
  attrs.type.isSome || attrs.format.isSome || attrs.enum.isSome || attrs.minimum.isSome ||
    attrs.maximum.isSome || attrs.default.isSome || attrs.pattern.isSome

/-- Fill the keywords that a parameter takes directly where they are not set. -/
def fillShortcuts (attrs shortcuts : SchemaAttrs) : SchemaAttrs :=
  { attrs with
    type := attrs.type <|> shortcuts.type
    format := attrs.format <|> shortcuts.format
    enum := attrs.enum <|> shortcuts.enum
    minimum := attrs.minimum <|> shortcuts.minimum
    maximum := attrs.maximum <|> shortcuts.maximum
    default := attrs.default <|> shortcuts.default
    pattern := attrs.pattern <|> shortcuts.pattern }

end SchemaAttrs

/-! ## Properties and items -/

/-- Give a property the name of the entry that declares it; `property` leaves the property's own
name, which it then needs. -/
def nameEntry (entry : String) (decl : PropertyDecl) : Except AnnotationError PropertyDecl :=
  if entry ≠ "property" then .ok (decl.rename (some entry))
  else
    match decl.name with
    | some _ => .ok decl
    | none => .error (.missingArgument "name")

mutual

/-- Apply arguments to the declaration of array elements. -/
def readItemsFrom (attrs : SchemaAttrs) (items : Option ItemsDecl)
    (properties : List PropertyDecl) : List (String × ArgValue) → Except AnnotationError ItemsDecl
  | [] => .ok (.mk attrs items properties)
  | (name, value) :: rest => do
      match ← attrs.set? (name, value) with
      | some attrs => readItemsFrom attrs items properties rest
      | none =>
          match name, value with
          | "items", .list args =>
              let decl ← readItemsFrom {} none [] args
              readItemsFrom attrs (some decl) properties rest
          | "items", _ => Arg.invalid (name, value) "nested arguments"
          | "properties", .list args =>
              let more ← readEntries args
              readItemsFrom attrs items (properties ++ more) rest
          | "properties", _ => Arg.invalid (name, value) "nested arguments"
          | _, _ => Arg.unknown (name, value)

/-- Apply arguments to the declaration of a property. -/
def readPropertyFrom (own : Option String) (attrs : SchemaAttrs) (required : Option Bool)
    (items : Option ItemsDecl) (properties : List PropertyDecl) :
    List (String × ArgValue) → Except AnnotationError PropertyDecl
  | [] => .ok (.mk own attrs required items properties)
  | (name, value) :: rest => do
      match ← attrs.set? (name, value) with
      | some attrs => readPropertyFrom own attrs required items properties rest
      | none =>
          match name, value with
          | "name", _ =>
              let text ← Arg.asText (name, value)
              readPropertyFrom (some text) attrs required items properties rest
          | "property", _ =>
              let text ← Arg.asText (name, value)
              readPropertyFrom (some text) attrs required items properties rest
          | "required", _ =>
              let flag ← Arg.asBool (name, value)
              readPropertyFrom own attrs (some flag) items properties rest
          | "items", .list args =>
              let decl ← readItemsFrom {} none [] args
              readPropertyFrom own attrs required (some decl) properties rest
          | "items", _ => Arg.invalid (name, value) "nested arguments"
          | "properties", .list args =>
              let more ← readEntries args
              readPropertyFrom own attrs required items (properties ++ more) rest
          | "properties", _ => Arg.invalid (name, value) "nested arguments"
          | _, _ => Arg.unknown (name, value)

/-- Read the entries of a list of properties. -/
def readEntries : List (String × ArgValue) → Except AnnotationError (List PropertyDecl)
  | [] => .ok []
  | (name, .list args) :: rest => do
      let decl ← readPropertyFrom none {} none none [] args
      let decl ← nameEntry name decl
      let decls ← readEntries rest
      return decl :: decls
  | (name, value) :: _ => Arg.invalid (name, value) "nested arguments"

end

/-- The declaration of array elements that arguments spell. -/
def ItemsDecl.ofArgs (args : List Arg) : Except AnnotationError ItemsDecl :=
  readItemsFrom {} none [] args

/-- The declaration of a property that arguments spell. -/
def PropertyDecl.ofArgs (args : List Arg) : Except AnnotationError PropertyDecl :=
  readPropertyFrom none {} none none [] args

/-- The properties that an argument lists. -/
def Arg.asProperties (arg : Arg) : Except AnnotationError (List PropertyDecl) := do
  readEntries (← arg.asList)

/-- The array elements that an argument declares. -/
def Arg.asItems (arg : Arg) : Except AnnotationError ItemsDecl := do
  ItemsDecl.ofArgs (← arg.asList)

/-! ## Schemas -/

namespace SchemaDecl

/-- Apply one argument. -/
def apply (decl : SchemaDecl) (arg : Arg) : Except AnnotationError SchemaDecl := do
  match ← decl.attrs.set? arg with
  | some attrs => return { decl with attrs }
  | none =>
      match arg.1 with
      | "title" => return { decl with title := some (← arg.asText) }
      | "required" => return { decl with required := some (← arg.asTextList) }
      | "properties" =>
          return { decl with properties := decl.properties ++ (← arg.asProperties) }
      | "items" => return { decl with items := some (← arg.asItems) }
      | _ => arg.unknown

/-- The schema that arguments spell. -/
def ofArgs (args : List Arg) : Except AnnotationError SchemaDecl :=
  applyArgs apply {} args

/-- The schema that is nothing but a reference. -/
def ofReference (reference : String) : SchemaDecl :=
  { attrs := { reference := some reference } }

end SchemaDecl

/-- The schema that an argument declares: nested arguments spell one, a text refers to one. -/
def Arg.asSchema (arg : Arg) : Except AnnotationError SchemaDecl :=
  match arg.2 with
  | .list args => SchemaDecl.ofArgs args
  | _ => do return SchemaDecl.ofReference (← arg.asText)

/-! ## Media types -/

namespace MediaTypeDecl

/-- The parts of a media type given so far. -/
structure Draft where
  mediaType : Option String := none
  schema : Option SchemaDecl := none
  exampleValue : Option Json := none
  examples : Option (List (String × Json)) := none

/-- Apply one argument. -/
def apply (draft : Draft) (arg : Arg) : Except AnnotationError Draft :=
  match arg.1 with
  | "" => do return { draft with mediaType := some (← arg.asText) }
  | "media_type" => do return { draft with mediaType := some (← arg.asText) }
  | "mediaType" => do return { draft with mediaType := some (← arg.asText) }
  | "schema" => do return { draft with schema := some (← arg.asSchema) }
  | "example" => .ok { draft with exampleValue := some arg.asJson }
  | "examples" => do return { draft with examples := some (← arg.asMembers) }
  | _ => arg.unknown

/-- The media type that arguments spell. -/
def ofArgs (args : List Arg) : Except AnnotationError MediaTypeDecl := do
  let draft ← applyArgs apply {} args
  match draft.mediaType with
  | some mediaType =>
      return { mediaType, schema := draft.schema, exampleValue := draft.exampleValue,
               examples := draft.examples }
  | none => .error (.missingArgument "media_type")

end MediaTypeDecl

/-- The media types that an argument lists. -/
def Arg.asMediaTypes (arg : Arg) : Except AnnotationError (List MediaTypeDecl) := do
  (← arg.asList).mapM fun (entry : Arg) =>
    if entry.1 = "media_type" then do MediaTypeDecl.ofArgs (← entry.asList) else entry.unknown

/-! ## Security -/

/-- The security requirement that arguments spell: schemes with the scopes they are given. -/
def SecurityRequirement.ofArgs (args : List Arg) : Except AnnotationError SecurityRequirement := do
  let requirement ← applyArgs (fun (requirement : SecurityRequirement) (arg : Arg) =>
    if arg.isPositional then do return putMember (← arg.asText) [] requirement
    else if arg.2.isFlag then .ok (putMember arg.1 [] requirement)
    else do return putMember arg.1 (← arg.asTextList) requirement) [] args
  if requirement.isEmpty then .error (.missingArgument "scheme") else return requirement

/-! ## Operations -/

namespace OperationDecl

/-- Apply one argument. -/
def apply (decl : OperationDecl) (arg : Arg) : Except AnnotationError OperationDecl :=
  match arg.1 with
  | "summary" => do return { decl with summary := some (← arg.asText) }
  | "description" => do return { decl with description := some (← arg.asText) }
  | "operation_id" => do return { decl with operationId := some (← arg.asText) }
  | "operationId" => do return { decl with operationId := some (← arg.asText) }
  | "id" => do return { decl with operationId := some (← arg.asText) }
  | "tags" => do return { decl with tags := some (← arg.asTextList) }
  | "tag" => do return { decl with tags := some (← arg.asTextList) }
  | "deprecated" => do return { decl with deprecated := some (← arg.asBool) }
  | "security" => do
      let requirement ← SecurityRequirement.ofArgs (← arg.asList)
      return { decl with security := some (decl.security.getD [] ++ [requirement]) }
  | _ => arg.unknown

/-- The operation that arguments spell. -/
def ofArgs (args : List Arg) : Except AnnotationError OperationDecl :=
  applyArgs apply {} args

end OperationDecl

/-! ## Parameters -/

namespace ParameterDecl

/-- The parts of a parameter given so far, with the schema keywords given directly. -/
structure Draft where
  name : Option String := none
  location : Option ParameterLocation := none
  description : Option String := none
  required : Option Bool := none
  deprecated : Option Bool := none
  schema : Option SchemaDecl := none
  exampleValue : Option Json := none
  examples : Option (List (String × Json)) := none
  shortcuts : SchemaAttrs := {}

/-- The schema keywords that a parameter takes directly. -/
def shortcutNames : List String :=
  ["type", "format", "enum", "minimum", "maximum", "default", "pattern"]

/-- The location that an argument names. -/
def readLocation (arg : Arg) : Except AnnotationError ParameterLocation := do
  match ParameterLocation.read? (← arg.asText) with
  | some location => return location
  | none => arg.invalid "one of query, header, path, cookie"

/-- Apply one argument. -/
def apply (draft : Draft) (arg : Arg) : Except AnnotationError Draft :=
  match arg.1 with
  | "" => do return { draft with name := some (← arg.asText) }
  | "name" => do return { draft with name := some (← arg.asText) }
  | "in" => do return { draft with location := some (← readLocation arg) }
  | "location" => do return { draft with location := some (← readLocation arg) }
  | "description" => do return { draft with description := some (← arg.asText) }
  | "required" => do return { draft with required := some (← arg.asBool) }
  | "deprecated" => do return { draft with deprecated := some (← arg.asBool) }
  | "schema" => do return { draft with schema := some (← arg.asSchema) }
  | "example" => .ok { draft with exampleValue := some arg.asJson }
  | "examples" => do return { draft with examples := some (← arg.asMembers) }
  | name =>
      if shortcutNames.contains name then do
        match ← draft.shortcuts.set? arg with
        | some shortcuts => return { draft with shortcuts }
        | none => return draft
      else arg.unknown

/-- The schema of a draft: the declared one, completed by the keywords given directly. -/
def Draft.finalSchema (draft : Draft) : Option SchemaDecl :=
  if draft.shortcuts.hasShortcut then
    let schema := draft.schema.getD {}
    some { schema with attrs := schema.attrs.fillShortcuts draft.shortcuts }
  else draft.schema

/-- The parameter that arguments spell. -/
def ofArgs (args : List Arg) : Except AnnotationError ParameterDecl := do
  let draft ← applyArgs apply {} args
  match draft.name, draft.location with
  | none, _ => .error (.missingArgument "name")
  | some _, none => .error (.missingArgument "in")
  | some name, some location =>
      return { name, location, description := draft.description, required := draft.required,
               deprecated := draft.deprecated, schema := draft.finalSchema,
               exampleValue := draft.exampleValue, examples := draft.examples }

end ParameterDecl

/-! ## Request bodies and responses -/

namespace RequestBodyDecl

/-- Apply one argument. -/
def apply (decl : RequestBodyDecl) (arg : Arg) : Except AnnotationError RequestBodyDecl :=
  match arg.1 with
  | "description" => do return { decl with description := some (← arg.asText) }
  | "required" => do return { decl with required := some (← arg.asBool) }
  | "ref" => do return { decl with reference := some (← arg.asText) }
  | "reference" => do return { decl with reference := some (← arg.asText) }
  | "schema" => do return { decl with reference := some (← arg.asText) }
  | "content" => do return { decl with content := decl.content ++ (← arg.asMediaTypes) }
  | "properties" => do return { decl with properties := decl.properties ++ (← arg.asProperties) }
  | _ => arg.unknown

/-- The request body that arguments spell. -/
def ofArgs (args : List Arg) : Except AnnotationError RequestBodyDecl :=
  applyArgs apply {} args

end RequestBodyDecl

namespace ResponseDecl

/-- The number that decimal digits spell after those of `value`, as long as it fits 16 bits. -/
def natural16From (value : Nat) : List Char → Option Nat
  | [] => some value
  | c :: rest =>
      let next := value * 10 + (c.toNat - '0'.toNat)
      if Text.isDigit c && next ≤ 0xFFFF then natural16From next rest else none

/-- The number of 16 bits that characters spell in decimal, with or without a plus sign. -/
def natural16? : List Char → Option Nat
  | [] => none
  | ['+'] => none
  | '+' :: digits => natural16From 0 digits
  | digits => natural16From 0 digits

/-- Whether a text of three bytes spells a status code from 100 to 599. -/
def isStatusCode (text : String) : Bool :=
  text.utf8ByteSize == 3 &&
    (natural16? text.toList).any fun code => 100 ≤ code && code ≤ 599

/-- Whether characters spell a range of status codes, such as `4XX`. -/
def isStatusRange : List Char → Bool
  | [a, 'X', 'X'] => '1' ≤ a && a ≤ '5'
  | _ => false

/-- The status that a text names: a code, a range in any case, or `default`. -/
def statusOfText? (text : String) : Option String :=
  if text = "default" || isStatusCode text then some text
  else if isStatusRange (Text.upper text).toList then some (Text.upper text)
  else none

/-- The status that an argument names. -/
def readStatus (arg : Arg) : Except AnnotationError String :=
  let status : Option String :=
    match arg.2 with
    | .number n =>
        match n.toNat? with
        | some code =>
            if 100 ≤ code ∧ code ≤ 599 then some (String.ofList (Number.natDigits code)) else none
        | none => none
    | .text text => statusOfText? text
    | _ => none
  match status with
  | some status => .ok status
  | none => arg.invalid "an HTTP status code, a range like \"4XX\" or \"default\""

/-- The headers that an argument lists with their descriptions. -/
def readHeaders (headers : List (String × String)) (arg : Arg) :
    Except AnnotationError (List (String × String)) := do
  (← arg.asList).foldlM (fun headers (header : Arg) => do
    return putMember header.1 (← header.asText) headers) headers

/-- Apply one argument. -/
def apply (decl : ResponseDecl) (arg : Arg) : Except AnnotationError ResponseDecl :=
  match arg.1 with
  | "" => do return { decl with status := ← readStatus arg }
  | "status" => do return { decl with status := ← readStatus arg }
  | "code" => do return { decl with status := ← readStatus arg }
  | "response" => do return { decl with status := ← readStatus arg }
  | "description" => do return { decl with description := some (← arg.asText) }
  | "ref" => do return { decl with reference := some (← arg.asText) }
  | "reference" => do return { decl with reference := some (← arg.asText) }
  | "schema" => do return { decl with reference := some (← arg.asText) }
  | "content" => do return { decl with content := decl.content ++ (← arg.asMediaTypes) }
  | "properties" => do return { decl with properties := decl.properties ++ (← arg.asProperties) }
  | "headers" => do return { decl with headers := ← readHeaders decl.headers arg }
  | _ => arg.unknown

/-- The response that arguments spell; its status is 200 unless one is given. -/
def ofArgs (args : List Arg) : Except AnnotationError ResponseDecl :=
  applyArgs apply { status := "200" } args

end ResponseDecl

/-! ## Groups and relationships -/

namespace ApiGroupDecl

/-- The parts of a group given so far. -/
structure Draft where
  name : Option String := none
  description : Option String := none
  externalDocs : Option String := none

/-- Apply one argument. -/
def apply (draft : Draft) (arg : Arg) : Except AnnotationError Draft :=
  match arg.1 with
  | "" => do return { draft with name := some (← arg.asText) }
  | "name" => do return { draft with name := some (← arg.asText) }
  | "description" => do return { draft with description := some (← arg.asText) }
  | "external_docs" => do return { draft with externalDocs := some (← arg.asText) }
  | "externalDocs" => do return { draft with externalDocs := some (← arg.asText) }
  | _ => arg.unknown

/-- The group that arguments spell. -/
def ofArgs (args : List Arg) : Except AnnotationError ApiGroupDecl := do
  let draft ← applyArgs apply {} args
  match draft.name with
  | some name =>
      return { name, description := draft.description, externalDocs := draft.externalDocs }
  | none => .error (.missingArgument "name")

end ApiGroupDecl

namespace RelationshipDecl

/-- The parts of a relationship given so far. -/
structure Draft where
  kind : Option RelationshipKind := none
  related : Option String := none
  description : Option String := none
  nullable : Option Bool := none

/-- The kind that an argument names. -/
def readKind (arg : Arg) : Except AnnotationError RelationshipKind := do
  let word ← arg.asText
  match RelationshipKind.ofName? word with
  | some kind => return kind
  | none => .error (.unknownRelationship word)

/-- Apply one argument; a bare name may be a kind. -/
def apply (draft : Draft) (arg : Arg) : Except AnnotationError Draft :=
  match arg.1 with
  | "kind" => do return { draft with kind := some (← readKind arg) }
  | "type" => do return { draft with kind := some (← readKind arg) }
  | "related" => do return { draft with related := some (← arg.asText) }
  | "model" => do return { draft with related := some (← arg.asText) }
  | "description" => do return { draft with description := some (← arg.asText) }
  | "nullable" => do return { draft with nullable := some (← arg.asBool) }
  | name =>
      match RelationshipKind.ofName? name with
      | some kind => if arg.2.isFlag then .ok { draft with kind := some kind } else arg.unknown
      | none => arg.unknown

/-- The relationship that arguments spell. -/
def ofArgs (args : List Arg) : Except AnnotationError RelationshipDecl := do
  let draft ← applyArgs apply {} args
  match draft.kind, draft.related with
  | none, _ => .error (.missingArgument "kind")
  | some _, none => .error (.missingArgument "related")
  | some kind, some related =>
      return { kind, related, description := draft.description, nullable := draft.nullable }

end RelationshipDecl

end AnnotatedApi
