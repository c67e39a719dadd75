import AnnotatedApi.Annotation.Extraction
import AnnotatedApi.Config.Basic
import AnnotatedApi.Model.Basic
import AnnotatedApi.Source.FieldOptions
import AnnotatedApi.Source.Index
import AnnotatedApi.Source.TypeHints
import AnnotatedApi.Text.Words

/-! # Finding models

A struct is a model when it carries the attribute `model`, or derives or implements `Model`. Its
fields are those of the struct that are written out, the ones its declarations name, and its
declared properties. -/

namespace AnnotatedApi

open Source

/-! ## Storage declarations -/

/-- What the attribute `model` declares. -/
structure StorageDecl where
  table : Option String := none
  fillable : List String := []
  hidden : List String := []
  casts : List (String × String) := []

namespace StorageDecl

/-- Add casts. -/
def addCast (decl : StorageDecl) (arg : Arg) : Except AnnotationError StorageDecl := do
  let cast ← arg.asText
  pure { decl with casts := putMember arg.1 cast decl.casts }

/-- Apply one argument. -/
def apply (decl : StorageDecl) (arg : Arg) : Except AnnotationError StorageDecl :=
  match arg.1 with
  | "table" => do
      let table ← arg.asText
      pure { decl with table := some table }
  | "fillable" => do
      let names ← arg.asTextList
      pure { decl with fillable := decl.fillable ++ names }
  | "hidden" => do
      let names ← arg.asTextList
      pure { decl with hidden := decl.hidden ++ names }
  | "casts" => do
      let casts ← arg.asList
      casts.foldlM addCast decl
  | _ => arg.unknown

/-- What an attribute declares. -/
def ofAttribute (a : Attribute) : Except AnnotationError StorageDecl := do
  let args ← a.args
  args.foldlM apply {}

/-- What two declarations say together; of two tables the second counts. -/
def merge (first second : StorageDecl) : StorageDecl :=
  { table := second.table <|> first.table
    fillable := first.fillable ++ second.fillable
    hidden := first.hidden ++ second.hidden
    casts := putMembers second.casts first.casts }

/-- What attributes declare together; each counts as a whole or not at all. -/
def ofAttributes (attrs : List Attribute) : StorageDecl :=
  (attrs.filter (Attribute.isNamed "model")).foldl
    (fun decl a =>
      match ofAttribute a with
      | .ok more => decl.merge more
      | .error _ => decl) {}

end StorageDecl

/-! ## Fields of structs -/

/-- A named field of a struct as it appears where values are written. -/
structure NamedField where
  name : String
  annotations : Annotations
  type : TypeExpr

namespace NamedField

/-- The field of a struct's field that has a name and is not skipped. -/
def ofField? (field : Field) : Option NamedField :=
  match field.name with
  | none => none
  | some name =>
      let options := FieldOptions.ofAttributes field.attrs
      if options.skip then none
      else
        some {
          name := options.rename.getD name
          annotations := .ofAttributes field.attrs
          type := field.type }

/-- The field as a model has it. -/
def modelField (f : NamedField) : ModelField :=
  let (nullable, inner) := f.type.unwrapOption
  { annotations := f.annotations, nullable, typeName := inner.name? }

/-- Add the hint of a field's type to casts, unless the field has a cast. -/
def addHint (casts : List (String × String)) (f : NamedField) : List (String × String) :=
  match f.type.castHint? with
  | some hint => addMember f.name hint casts
  | none => casts

end NamedField

/-- The written fields of a struct. -/
def namedFieldsOf (entry : TypeEntry) : List NamedField :=
  match entry.item with
  | some item => item.fields.filterMap NamedField.ofField?
  | none => []

/-! ## Models -/

/-- Give a declared property to the field of its name, which comes into being if it is not there. A
property that the field already has stays. -/
def addProperty (fields : List (String × ModelField)) (decl : PropertyDecl) :
    List (String × ModelField) :=
  match decl.name with
  | none => fields
  | some name =>
      let field := (getMember? name fields).getD { nullable := decl.attrs.nullable.getD false }
      let field :=
        if field.annotations.property?.isSome then field
        else { field with annotations := field.annotations ++ [.property decl] }
      putMember name field fields

/-- The model of a struct. -/
def Model.ofEntry (config : Config) (entry : TypeEntry) : Model :=
  let storage := StorageDecl.ofAttributes entry.attrs
  let annotations : Annotations := .ofAttributes entry.attrs
  let named := namedFieldsOf entry
  let hiddenFields := named.filter fun f => f.annotations.isHidden
  let shown := named.filter fun f => !f.annotations.isHidden
  let hiddenNames := hiddenFields.map NamedField.name
  let fields := putMembers (shown.map fun f => (f.name, f.modelField)) []
  let declared := storage.fillable ++ memberNames storage.casts
  let fields := declared.foldl (fun fields name => addMember name {} fields) fields
  let fields := annotations.properties.foldl addProperty fields
  let isShown (name : String) : Bool :=
    !(storage.hidden.contains name && !config.includesHidden) && !hiddenNames.contains name
  { identifier := entry.qualifiedName
    name := Text.lastSegment entry.qualifiedName
    table := storage.table.getD (Text.pluralize (Text.snakeCase entry.name))
    fields := fields.filter fun field => isShown field.1
    casts := shown.foldl NamedField.addHint storage.casts
    fillable := storage.fillable
    hidden := storage.hidden ++ hiddenNames
    annotations }

/-- Whether a struct is a model. -/
def isModel (entry : TypeEntry) : Bool :=
  entry.implements "Model" ||
    entry.attrs.any fun a => a.isNamed "model" || a.derives "Model"

/-- Whether one of the names means the struct. -/
def isExcluded (names : List String) (entry : TypeEntry) : Bool :=
  names.any fun name =>
    let name := String.ofList (Index.dropLeadingColons name.toList)
    name == entry.qualifiedName || name == entry.name ||
      Text.endsWith entry.qualifiedName ("::" ++ name)

/-- The models of an index, in its order. -/
def modelsOf (config : Config) (index : Index) : List Model :=
  (index.structs.filter fun entry =>
    isModel entry && entry.isConcrete &&
      !isExcluded config.discovery.models.excluded entry).map (Model.ofEntry config)

end AnnotatedApi
