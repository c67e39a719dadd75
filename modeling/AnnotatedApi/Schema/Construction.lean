import AnnotatedApi.Schema.Cast
import AnnotatedApi.Schema.Reference
import AnnotatedApi.Model.Basic

/-! # Schemas of declarations and models

A declaration with a reference becomes that reference. Any other becomes a schema in place, whose
type defaults to what its nested declarations need. The schema of a model's field starts from its
cast; conventional names force a type. -/

namespace AnnotatedApi

/-- The texts without later repetitions. -/
def withoutRepeats (texts : List String) : List String :=
  texts.eraseDups

/-! ## Nested declarations -/

/-- A property of a schema under construction. -/
structure BuiltProperty where
  name : Option String
  nullable : Bool
  required : Option Bool
  fragment : Fragment

namespace BuiltProperty

/-- Whether the property is required: as declared, or when it is neither nullable nor an array or
object in place. -/
def isRequired (p : BuiltProperty) : Bool :=
  p.required.getD (!p.nullable && !p.fragment.isNested)

/-- The named properties among properties. -/
def named (properties : List BuiltProperty) : List (String × BuiltProperty) :=
  properties.filterMap fun p => p.name.map fun name => (name, p)

end BuiltProperty

namespace Schema

/-- Set the type, unless there is one: an array for elements, an object for properties, and
otherwise the given type. -/
def withDefaultType (items : Option Fragment) (properties : List BuiltProperty)
    (fallback : Option String) (schema : Schema) : Schema :=
  let type : Option String :=
    if items.isSome then some "array"
    else if !properties.isEmpty then some "object"
    else fallback
  { schema with type := schema.type <|> type }

/-- Add elements to an array, and properties to an object. -/
def withNested (items : Option Fragment) (properties : List BuiltProperty) (schema : Schema) :
    Schema :=
  match schema.type with
  | some "array" =>
      { schema with items := items <|> schema.items <|> some (.inline (typed "string")) }
  | some "object" =>
      if properties.isEmpty then schema
      else
        let named := BuiltProperty.named properties
        { schema with
          properties := putMembers (mapMembers BuiltProperty.fragment named) schema.properties
          required := withoutRepeats
            (memberNames (named.filter fun entry => entry.2.isRequired)) }
  | _ => schema

/-- Set the type where there is none, and add the elements and properties that fit it. -/
def shape (items : Option Fragment) (properties : List BuiltProperty) (fallback : Option String)
    (schema : Schema) : Schema :=
  (schema.withDefaultType items properties fallback).withNested items properties

end Schema

mutual

/-- The fragment of declared elements. -/
def ItemsDecl.fragment (names : ModelNames) : ItemsDecl → Fragment
  | .mk attrs items properties =>
      match names.optionalFragment? attrs.reference with
      | some fragment => fragment
      | none =>
          .inline <| (Schema.overlay attrs {}).shape (fragmentOfItems names items)
            (builtProperties names properties) none

/-- The fragment of a declared property; one that says nothing is a string. -/
def PropertyDecl.fragment (names : ModelNames) : PropertyDecl → Fragment
  | .mk _ attrs _ items properties =>
      match names.optionalFragment? attrs.reference with
      | some fragment => fragment
      | none =>
          .inline <| (Schema.overlay attrs {}).shape (fragmentOfItems names items)
            (builtProperties names properties) (some "string")

/-- The fragment of optional elements. -/
def fragmentOfItems (names : ModelNames) : Option ItemsDecl → Option Fragment
  | none => none
  | some items => some (items.fragment names)

/-- The properties of a list of declarations. -/
def builtProperties (names : ModelNames) : List PropertyDecl → List BuiltProperty
  | [] => []
  | p :: rest =>
      { name := p.name
        nullable := p.attrs.nullable.getD false
        required := p.required
        fragment := p.fragment names } :: builtProperties names rest

end

/-- The fragment of a declared schema. -/
def SchemaDecl.fragment (names : ModelNames) (decl : SchemaDecl) : Fragment :=
  match names.optionalFragment? decl.attrs.reference with
  | some fragment => fragment
  | none =>
      let schema := { Schema.overlay decl.attrs {} with title := decl.title }.shape
        (fragmentOfItems names decl.items) (builtProperties names decl.properties) none
      match decl.required with
      | some required => .inline { schema with required := withoutRepeats required }
      | none => .inline schema

/-- The object that has the declared properties. -/
def objectOfProperties (names : ModelNames) (properties : List PropertyDecl) : Fragment :=
  .inline ((Schema.typed "object").shape none (builtProperties names properties) none)

/-- The fragment of a relationship: the related schema or an array of it. -/
def RelationshipDecl.fragment (names : ModelNames) (decl : RelationshipDecl) : Fragment :=
  let target := (names.fragment? decl.related).getD (.inline (.typed "object"))
  if decl.kind.isMany then .inline { Schema.arrayOf target with description := decl.description }
  else target

/-! ## Conventional names -/

/-- The schema that a conventional field name forces. -/
def conventionalSchema? (name : String) : Option Schema :=
  if name == "id" then
    some { Schema.formatted "integer" "int64" with
      description := some "Unique identifier", readOnly := some true }
  else if name == "created_at" || name == "updated_at" then
    some { Schema.formatted "string" "date-time" with readOnly := some true }
  else
    match Text.stripBack? "_id".toList name.toList with
    | some (c :: relation) =>
        let words := String.ofList ((c :: relation).map fun c => if c = '_' then ' ' else c)
        some { Schema.formatted "integer" "int64" with
          description := some ("Foreign key referencing the " ++ words ++ " resource") }
    | _ =>
        if Text.endsWith name "_at" then some (.formatted "string" "date-time") else none

/-- Force the type and format of a conventional name. A declared description is kept; elements and
properties only if the type stays. -/
def Schema.withConvention (name : String) (schema : Schema) : Schema :=
  match conventionalSchema? name with
  | none => schema
  | some forced =>
      let sameType := forced.type == schema.type
      { schema with
        items := if sameType then schema.items else none
        properties := if sameType then schema.properties else []
        type := forced.type
        format := forced.format
        readOnly := forced.readOnly <|> schema.readOnly
        description := schema.description <|> forced.description }

/-! ## Fields and models -/

namespace ModelField

/-- The schema of a field that neither refers to another schema nor is a relationship. -/
def inlineSchema (field : ModelField) (names : ModelNames) (name : String)
    (cast : Option String) : Schema :=
  match field.annotations.property? with
  | some decl =>
      let base : Schema := if decl.attrs.type.isSome then {} else .ofCast cast
      let items := fragmentOfItems names (decl.items <|> field.annotations.items?)
      ((base.overlay decl.attrs).shape items (builtProperties names decl.properties)
        (some "string")).withConvention name
  | none =>
      let schema := (Schema.ofCast cast).withConvention name
      let items :=
        match field.annotations.items? with
        | some items =>
            if schema.type == some "array" then some (items.fragment names) else schema.items
        | none => schema.items
      { schema with
        items, nullable := if field.nullable then some true else schema.nullable }

/-- Whether the values of a field may be null, as declared or by its type. -/
def isNullable (field : ModelField) : Bool :=
  (field.annotations.property?.bind fun decl => decl.attrs.nullable).getD field.nullable

/-- The fragment of a field, and whether the field is required. -/
def fragment (field : ModelField) (names : ModelNames) (name : String) (cast : Option String) :
    Fragment × Bool :=
  let decl := field.annotations.property?
  let required := decl.bind PropertyDecl.required
  match names.optionalFragment? (decl.bind fun decl => decl.attrs.reference) with
  | some fragment => (fragment, required.getD !field.isNullable)
  | none =>
      match field.annotations.relationship? with
      | some relationship =>
          let fragment := relationship.fragment names
          let nullable := relationship.nullable.getD field.isNullable
          (fragment, required.getD (!nullable && !fragment.isNested))
      | none =>
          let schema := field.inlineSchema names name cast
          (.inline schema, required.getD (!field.isNullable && !schema.isNested))

end ModelField

namespace Model

/-- The fragments of a model's fields, and which fields are required. -/
def fieldFragments (model : Model) (names : ModelNames) : List (String × Fragment × Bool) :=
  model.fields.map fun (name, field) => (name, field.fragment names name (model.castFor? name))

/-- The names of the required fields: those that are declared, or those that turn out to be. -/
def requiredFields (model : Model) (names : ModelNames) : List String :=
  let inferred := memberNames ((model.fieldFragments names).filter fun entry => entry.2.2)
  match model.annotations.schema?.bind SchemaDecl.required with
  | some (first :: rest) => withoutRepeats (first :: rest)
  | _ => withoutRepeats inferred

/-- The schema of a model that does not refer to another one. -/
def inlineSchema (model : Model) (names : ModelNames) : Schema :=
  let schema : Schema :=
    { type := some "object"
      title := some model.name
      description := some (model.name ++ " model")
      properties := collectMembers (mapMembers Prod.fst (model.fieldFragments names))
      required := model.requiredFields names }
  match model.annotations.schema? with
  | some decl => { schema.overlay decl.attrs with title := decl.title <|> schema.title }
  | none => schema

/-- The fragment of a model. -/
def fragment (model : Model) (names : ModelNames) : Fragment :=
  match names.optionalFragment?
      (model.annotations.schema?.bind fun decl => decl.attrs.reference) with
  | some fragment => fragment
  | none => .inline (model.inlineSchema names)

end Model

end AnnotatedApi
