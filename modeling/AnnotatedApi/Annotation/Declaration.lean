import AnnotatedApi.Annotation.Argument
import AnnotatedApi.ParameterLocation

/-! # Declarations

What the annotations of the vocabulary declare. Optional parts stay optional, so that "not given"
differs from "given as false or empty". Each declaration is built by going through the arguments in
order: an argument sets a part, adds to a list, or is refused; the first refusal wins. -/

namespace AnnotatedApi

/-- The keywords shared by every schema-like declaration. -/
structure SchemaAttrs where
  type : Option String := none
  format : Option String := none
  description : Option String := none
  reference : Option String := none
  default : Option Json := none
  exampleValue : Option Json := none
  examples : Option (List Json) := none
  nullable : Option Bool := none
  enum : Option (List Json) := none
  minLength : Option Nat := none
  maxLength : Option Nat := none
  minimum : Option Number := none
  maximum : Option Number := none
  pattern : Option String := none
  readOnly : Option Bool := none
  writeOnly : Option Bool := none
  deriving Repr, Inhabited

mutual

/-- The shape of the elements of an array. -/
inductive ItemsDecl where
  | mk (attrs : SchemaAttrs) (items : Option ItemsDecl) (properties : List PropertyDecl)

/-- One property. On a field its name is the field's; elsewhere it has to be named. -/
inductive PropertyDecl where
  | mk (name : Option String) (attrs : SchemaAttrs) (required : Option Bool)
      (items : Option ItemsDecl) (properties : List PropertyDecl)

end

namespace ItemsDecl

/-- The keywords of the elements. -/
def attrs : ItemsDecl → SchemaAttrs
  | mk attrs _ _ => attrs

/-- The declared elements of the elements. -/
def items : ItemsDecl → Option ItemsDecl
  | mk _ items _ => items

/-- The declared properties of the elements. -/
def properties : ItemsDecl → List PropertyDecl
  | mk _ _ properties => properties

/-- The declaration that says nothing. -/
def empty : ItemsDecl := mk {} none []

end ItemsDecl

namespace PropertyDecl

/-- The name of the property. -/
def name : PropertyDecl → Option String
  | mk name _ _ _ _ => name

/-- The keywords of the property. -/
def attrs : PropertyDecl → SchemaAttrs
  | mk _ attrs _ _ _ => attrs

/-- Whether the property is declared as required. -/
def required : PropertyDecl → Option Bool
  | mk _ _ required _ _ => required

/-- The declared elements of the property. -/
def items : PropertyDecl → Option ItemsDecl
  | mk _ _ _ items _ => items

/-- The declared properties of the property. -/
def properties : PropertyDecl → List PropertyDecl
  | mk _ _ _ _ properties => properties

/-- The same property under another name. -/
def rename (name : Option String) : PropertyDecl → PropertyDecl
  | mk _ attrs required items properties => mk name attrs required items properties

/-- The declaration that says nothing. -/
def empty : PropertyDecl := mk none {} none none []

end PropertyDecl

instance : Inhabited ItemsDecl := ⟨.empty⟩

instance : Inhabited PropertyDecl := ⟨.empty⟩

/-- A schema declared for a type or in place. -/
structure SchemaDecl where
  title : Option String := none
  attrs : SchemaAttrs := {}
  required : Option (List String) := none
  properties : List PropertyDecl := []
  items : Option ItemsDecl := none
  deriving Inhabited

/-- Security schemes that hold together, each with its scopes. -/
abbrev SecurityRequirement : Type := List (String × List String)

/-- What a handler's operation is declared to be. Each security requirement is an alternative. -/
structure OperationDecl where
  summary : Option String := none
  description : Option String := none
  operationId : Option String := none
  tags : Option (List String) := none
  deprecated : Option Bool := none
  security : Option (List SecurityRequirement) := none

/-- A declared parameter. -/
structure ParameterDecl where
  name : String
  location : ParameterLocation
  description : Option String := none
  required : Option Bool := none
  deprecated : Option Bool := none
  schema : Option SchemaDecl := none
  exampleValue : Option Json := none
  examples : Option (List (String × Json)) := none

/-- A media type with its schema and examples. -/
structure MediaTypeDecl where
  mediaType : String
  schema : Option SchemaDecl := none
  exampleValue : Option Json := none
  examples : Option (List (String × Json)) := none

/-- A declared request body. -/
structure RequestBodyDecl where
  description : Option String := none
  required : Option Bool := none
  reference : Option String := none
  content : List MediaTypeDecl := []
  properties : List PropertyDecl := []

/-- A declared response. Its status is a code, a range such as `4XX`, or `default`; headers are
given with their descriptions. -/
structure ResponseDecl where
  status : String
  description : Option String := none
  reference : Option String := none
  content : List MediaTypeDecl := []
  properties : List PropertyDecl := []
  headers : List (String × String) := []

/-- A group of handlers, which becomes a tag. -/
structure ApiGroupDecl where
  name : String
  description : Option String := none
  externalDocs : Option String := none

/-- How a model is related to another. -/
inductive RelationshipKind where
  | belongsTo
  | hasOne
  | hasMany
  | belongsToMany
  | morphOne
  | morphMany
  deriving DecidableEq, Repr

namespace RelationshipKind

/-- The kind that a word names, with underscores or capitals between its parts. -/
def ofName? (word : String) : Option RelationshipKind :=
  match word with
  | "belongs_to" => some belongsTo
  | "belongsTo" => some belongsTo
  | "has_one" => some hasOne
  | "hasOne" => some hasOne
  | "has_many" => some hasMany
  | "hasMany" => some hasMany
  | "belongs_to_many" => some belongsToMany
  | "belongsToMany" => some belongsToMany
  | "morph_one" => some morphOne
  | "morphOne" => some morphOne
  | "morph_many" => some morphMany
  | "morphMany" => some morphMany
  | _ => none

/-- Whether the relation holds a collection of related records. -/
def isMany : RelationshipKind → Bool
  | hasMany => true
  | belongsToMany => true
  | morphMany => true
  | _ => false

end RelationshipKind

/-- A relation of a model's field to another model. -/
structure RelationshipDecl where
  kind : RelationshipKind
  related : String
  description : Option String := none
  nullable : Option Bool := none

end AnnotatedApi
