import AnnotatedApi.Annotation.Reader

/-! # Annotations

An annotation is a declaration of one of the kinds of the vocabulary. A list of annotations, as a
type, a handler or a field carries it, is asked for the declarations of a kind. -/

namespace AnnotatedApi

/-- An annotation of the vocabulary. -/
inductive Annotation where
  | schema (decl : SchemaDecl)
  | property (decl : PropertyDecl)
  | items (decl : ItemsDecl)
  | operation (decl : OperationDecl)
  | parameter (decl : ParameterDecl)
  | requestBody (decl : RequestBodyDecl)
  | response (decl : ResponseDecl)
  | mediaType (decl : MediaTypeDecl)
  | apiGroup (decl : ApiGroupDecl)
  | security (requirement : SecurityRequirement)
  | hidden
  | relationship (decl : RelationshipDecl)

namespace Annotation

/-- The names of the vocabulary. -/
def vocabulary : List String :=
  ["schema", "property", "items", "operation", "parameter", "request_body", "response",
   "media_type", "api_group", "api_tag", "security", "hidden", "relationship"]

/-- The name of the vocabulary that a path spells, alone or under `openapi`. -/
def vocabularyName? (path : List String) : Option String :=
  let name : Option String :=
    match path with
    | [name] => some name
    | ["openapi", name] => some name
    | _ => none
  name.filter vocabulary.contains

/-- The annotation of a name with the given arguments. -/
def ofArgs (name : String) (args : List Arg) : Except AnnotationError Annotation :=
  match name with
  | "schema" => (SchemaDecl.ofArgs args).map schema
  | "property" => (PropertyDecl.ofArgs args).map property
  | "items" => (ItemsDecl.ofArgs args).map items
  | "operation" => (OperationDecl.ofArgs args).map operation
  | "parameter" => (ParameterDecl.ofArgs args).map parameter
  | "request_body" => (RequestBodyDecl.ofArgs args).map requestBody
  | "response" => (ResponseDecl.ofArgs args).map response
  | "media_type" => (MediaTypeDecl.ofArgs args).map mediaType
  | "api_group" => (ApiGroupDecl.ofArgs args).map apiGroup
  | "api_tag" => (ApiGroupDecl.ofArgs args).map apiGroup
  | "security" => (SecurityRequirement.ofArgs args).map security
  | "hidden" =>
      match args with
      | [] => .ok hidden
      | arg :: _ => arg.unknown
  | "relationship" => (RelationshipDecl.ofArgs args).map relationship
  | name => .error (.notInVocabulary name)

end Annotation

/-! ## Lookups in lists of annotations -/

/-- The annotations of one entity, in the order in which they are written. -/
abbrev Annotations : Type := List Annotation

namespace Annotations

/-- The first declared operation. -/
def operation? (list : Annotations) : Option OperationDecl :=
  list.findSome? fun
    | .operation decl => some decl
    | _ => none

/-- The first declared schema. -/
def schema? (list : Annotations) : Option SchemaDecl :=
  list.findSome? fun
    | .schema decl => some decl
    | _ => none

/-- The declared properties. -/
def properties (list : Annotations) : List PropertyDecl :=
  list.filterMap fun
    | .property decl => some decl
    | _ => none

/-- The first declared property. -/
def property? (list : Annotations) : Option PropertyDecl :=
  (properties list).head?

/-- The first declared array elements. -/
def items? (list : Annotations) : Option ItemsDecl :=
  list.findSome? fun
    | .items decl => some decl
    | _ => none

/-- The declared parameters. -/
def parameters (list : Annotations) : List ParameterDecl :=
  list.filterMap fun
    | .parameter decl => some decl
    | _ => none

/-- The first declared request body. -/
def requestBody? (list : Annotations) : Option RequestBodyDecl :=
  list.findSome? fun
    | .requestBody decl => some decl
    | _ => none

/-- The declared responses. -/
def responses (list : Annotations) : List ResponseDecl :=
  list.filterMap fun
    | .response decl => some decl
    | _ => none

/-- The declared groups. -/
def apiGroups (list : Annotations) : List ApiGroupDecl :=
  list.filterMap fun
    | .apiGroup decl => some decl
    | _ => none

/-- The declared security requirements. -/
def security (list : Annotations) : List SecurityRequirement :=
  list.filterMap fun
    | .security requirement => some requirement
    | _ => none

/-- The first declared relationship. -/
def relationship? (list : Annotations) : Option RelationshipDecl :=
  list.findSome? fun
    | .relationship decl => some decl
    | _ => none

/-- Whether the entity is marked as hidden. -/
def isHidden (list : Annotations) : Bool :=
  list.any fun
    | .hidden => true
    | _ => false

end Annotations

end AnnotatedApi
