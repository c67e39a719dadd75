import AnnotatedApi.Json.Basic
import AnnotatedApi.Annotation.Declaration

/-! # Schemas

A schema describes values by keywords. Where a schema is used, there is either a reference or a
schema in place: a fragment. A reference has no keywords beside it. -/

namespace AnnotatedApi

mutual

/-- A reference to a schema or a schema in place. -/
inductive Fragment where
  | ref (pointer : String)
  | inline (schema : Schema)

/-- The keywords of a schema. -/
structure Schema where
  type : Option String := none
  format : Option String := none
  title : Option String := none
  description : Option String := none
  properties : List (String × Fragment) := []
  required : List String := []
  items : Option Fragment := none
  enum : Option (List Json) := none
  default : Option Json := none
  exampleValue : Option Json := none
  examples : Option (List Json) := none
  nullable : Option Bool := none
  readOnly : Option Bool := none
  writeOnly : Option Bool := none
  minLength : Option Nat := none
  maxLength : Option Nat := none
  minimum : Option Number := none
  maximum : Option Number := none
  pattern : Option String := none

end

instance : Inhabited Fragment := ⟨.ref ""⟩

instance : Inhabited Schema := ⟨{}⟩

namespace Schema

/-- A schema that only has a type. -/
def typed (type : String) : Schema :=
  { type := some type }

/-- A schema with a type and a format. -/
def formatted (type format : String) : Schema :=
  { type := some type, format := some format }

/-- An array of the given elements. -/
def arrayOf (items : Fragment) : Schema :=
  { type := some "array", items := some items }

/-- An object with the given properties. -/
def object (properties : List (String × Fragment)) : Schema :=
  { type := some "object", properties }

/-- Replace every keyword that the attributes set. -/
def overlay (attrs : SchemaAttrs) (schema : Schema) : Schema :=
  { schema with
    type := attrs.type <|> schema.type
    format := attrs.format <|> schema.format
    description := attrs.description <|> schema.description
    default := attrs.default <|> schema.default
    exampleValue := attrs.exampleValue <|> schema.exampleValue
    examples := attrs.examples <|> schema.examples
    nullable := attrs.nullable <|> schema.nullable
    enum := attrs.enum <|> schema.enum
    minLength := attrs.minLength <|> schema.minLength
    maxLength := attrs.maxLength <|> schema.maxLength
    minimum := attrs.minimum <|> schema.minimum
    maximum := attrs.maximum <|> schema.maximum
    pattern := attrs.pattern <|> schema.pattern
    readOnly := attrs.readOnly <|> schema.readOnly
    writeOnly := attrs.writeOnly <|> schema.writeOnly }

/-- Whether the schema is that of an array or an object. -/
def isNested (schema : Schema) : Bool :=
  schema.type == some "array" || schema.type == some "object"

end Schema

namespace Fragment

/-- The pointer of a reference. -/
def pointer? : Fragment → Option String
  | ref pointer => some pointer
  | inline _ => none

/-- Whether the fragment is an array or object in place. -/
def isNested : Fragment → Bool
  | ref _ => false
  | inline schema => schema.isNested

end Fragment

/-! ## Schemas as JSON -/

/-- The member of an optional value. -/
def optionalMember (name : String) (toJson : α → Json) (value : Option α) :
    List (String × Json) :=
  match value with
  | some value => [(name, toJson value)]
  | none => []

/-- The member of a list that is left out when empty. -/
def listMember (name : String) (toJson : List α → Json) (values : List α) :
    List (String × Json) :=
  if values.isEmpty then [] else [(name, toJson values)]

/-- A natural number as JSON. -/
def Json.nat (n : Nat) : Json := .int n

mutual

/-- The JSON value of a fragment. -/
def Fragment.toJson : Fragment → Json
  | .ref pointer => .object [("$ref", .text pointer)]
  | .inline schema => schema.toJson

/-- The JSON value of a schema; keywords that are not set are left out. -/
def Schema.toJson (schema : Schema) : Json :=
  match schema with
  | { type, format, title, description, properties, required, items, enum, default, exampleValue,
      examples, nullable, readOnly, writeOnly, minLength, maxLength, minimum, maximum, pattern } =>
    .object <|
      optionalMember "type" .text type ++
      optionalMember "format" .text format ++
      optionalMember "title" .text title ++
      optionalMember "description" .text description ++
      (if properties.isEmpty then [] else [("properties", .object (fragmentsToJson properties))]) ++
      listMember "required" .texts required ++
      (match items with
        | some items => [("items", items.toJson)]
        | none => []) ++
      optionalMember "enum" .array enum ++
      optionalMember "default" id default ++
      optionalMember "example" id exampleValue ++
      optionalMember "examples" .array examples ++
      optionalMember "nullable" .bool nullable ++
      optionalMember "readOnly" .bool readOnly ++
      optionalMember "writeOnly" .bool writeOnly ++
      optionalMember "minLength" .nat minLength ++
      optionalMember "maxLength" .nat maxLength ++
      optionalMember "minimum" .number minimum ++
      optionalMember "maximum" .number maximum ++
      optionalMember "pattern" .text pattern

/-- The JSON values of named fragments. -/
def fragmentsToJson : List (String × Fragment) → List (String × Json)
  | [] => []
  | (name, fragment) :: rest => (name, fragment.toJson) :: fragmentsToJson rest

end

end AnnotatedApi
