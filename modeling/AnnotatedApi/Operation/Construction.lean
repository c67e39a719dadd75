import AnnotatedApi.Operation.Templates
import AnnotatedApi.Route.Discovery
import AnnotatedApi.Schema.Construction

/-! # Operations of endpoints

An operation starts from what the handler declares. What is still missing is filled in from
conventions: the handler's name gives a summary, the address gives parameters, and the models give
bodies and responses. What is declared always stays. -/

namespace AnnotatedApi

open Route

/-! ## What operations are built from -/

/-- What all operations of a document share. -/
structure OperationContext where
  names : ModelNames
  models : List Model
  schemes : List (String × SecurityScheme)

namespace Route.Endpoint

/-- The declared operation. -/
def declared (e : Endpoint) : OperationDecl :=
  e.methodAnnotations.operation?.getD {}

/-- The conventional meaning of the handler. -/
def verb? (e : Endpoint) : Option Verb :=
  e.handler.map fun h => Verb.classify h.method e.method

/-- The words that name the handled resource. -/
def resource? (e : Endpoint) : Option String :=
  (e.handler.map fun h => Text.resourceWords h.typeName).filter (· != "")

/-- The groups of the handler's type and of the handler. -/
def groups (e : Endpoint) : List ApiGroupDecl :=
  e.typeAnnotations.apiGroups ++ e.methodAnnotations.apiGroups

/-- The names of the groups and the declared tags, without repetitions. -/
def declaredTags (e : Endpoint) : List String :=
  withoutRepeats (e.groups.map ApiGroupDecl.name ++ e.declared.tags.getD [])

end Route.Endpoint

/-- The first model that a resource names. -/
def modelNamed? (models : List Model) (resource : String) : Option Model :=
  models.find? fun model => Text.sameIdentifier model.name resource

/-- A declared text that is not empty. -/
def givenText (text : Option String) : Option String :=
  text.filter (· != "")

namespace OperationContext

/-- The model that an endpoint handles. -/
def model? (context : OperationContext) (e : Endpoint) : Option Model :=
  e.resource?.bind (modelNamed? context.models)

/-- The reference to a model. -/
def modelFragment (context : OperationContext) (model : Model) : Fragment :=
  (context.names.fragment? model.identifier).getD .anyObject

/-! ## Tags and names -/

/-- The tags: those that are declared, or the one that the handler's type gives. -/
def tags (e : Endpoint) : List String :=
  match e.declaredTags with
  | [] =>
      match e.handler with
      | some h =>
          let tag := Text.resourceTag h.typeName
          if tag == "" then [] else [tag]
      | none => []
  | declared => declared

/-- The identifier: as declared, the name of the route, or the one of its method and address. -/
def operationId (e : Endpoint) : String :=
  (givenText e.declared.operationId <|> e.name).getD (operationIdFor e.method e.path)

/-- The summary by convention. -/
def conventionalSummary (e : Endpoint) : String :=
  match e.verb?, e.resource? with
  | some verb, some resource => verb.summary resource
  | _, _ => Text.capitalize e.method.name ++ " " ++ e.path

/-- The description by convention. -/
def conventionalDescription (e : Endpoint) : String :=
  match e.verb?, e.resource? with
  | some verb, some resource => verb.description resource
  | _, _ => "Endpoint for " ++ e.path

/-! ## Parameters -/

/-- A declared parameter. One in the address is required unless it says otherwise. -/
def declaredParameter (context : OperationContext) (decl : ParameterDecl) : Parameter :=
  { name := decl.name
    location := decl.location
    description := decl.description
    required := decl.required.getD (decl.location == .path)
    deprecated := decl.deprecated
    schema := decl.schema.map (SchemaDecl.fragment context.names)
    exampleValue := decl.exampleValue
    examples := decl.examples }

/-- The schema of a parameter in the address, by the pattern it has to match. -/
def pathSchema (pattern : Option String) : Schema :=
  match pattern with
  | none => .typed "string"
  | some p =>
      if ["\\d+", "[0-9]+", "\\d*", "[0-9]*"].contains p then .typed "integer"
      else if Text.occursIn "uuid".toList (Text.lower p).toList then .formatted "string" "uuid"
      else { type := some "string", pattern := some p }

/-- The parameter of a placeholder in the address. -/
def pathParameter (wheres : List (String × String)) (name : String) : Parameter :=
  let words := String.ofList (name.toList.map fun c => if c = '_' then ' ' else c)
  { name
    location := .path
    description := some ("The " ++ words ++ " parameter")
    required := true
    schema := some (.inline (pathSchema (getMember? name wheres))) }

/-- The parameters by convention: those in the address, and those that choose a page of a list. -/
def discoveredParameters (e : Endpoint) : List Parameter :=
  e.parameters.map (pathParameter e.wheres) ++
    (if e.verb? == some .list then Parameter.pagination else [])

/-- Add a parameter, unless one of its name and location is there. -/
def addParameter (parameters : List Parameter) (p : Parameter) : List Parameter :=
  if parameters.any fun q => q.name == p.name && q.location == p.location then parameters
  else parameters ++ [p]

/-- The parameters: those that are declared, then those by convention. -/
def parameters (context : OperationContext) (e : Endpoint) : List Parameter :=
  (discoveredParameters e).foldl addParameter
    (e.methodAnnotations.parameters.map context.declaredParameter)

/-! ## Bodies -/

/-- The declared content of media types. -/
def declaredContent (context : OperationContext) (decls : List MediaTypeDecl) :
    List (String × MediaType) :=
  collectMembers (decls.map fun decl =>
    (decl.mediaType,
      { schema := decl.schema.map (SchemaDecl.fragment context.names)
        exampleValue := decl.exampleValue
        examples := decl.examples }))

/-- The content of a body: media types if there are any, else JSON of the referenced schema or of
the declared properties. -/
def content (context : OperationContext) (decls : List MediaTypeDecl) (reference : Option String)
    (properties : List PropertyDecl) : List (String × MediaType) :=
  if !decls.isEmpty then context.declaredContent decls
  else
    match context.names.optionalFragment? reference with
    | some fragment => jsonContent fragment
    | none =>
        if properties.isEmpty then []
        else jsonContent (objectOfProperties context.names properties)

/-- A declared request body. -/
def declaredBody (context : OperationContext) (decl : RequestBodyDecl) : RequestBody :=
  { description := decl.description
    required := decl.required.getD true
    content := context.content decl.content decl.reference decl.properties }

/-- The description of a request body by convention, and whether the body is required. -/
def bodySummary (verb : Option Verb) (method : HttpMethod) (resource : String) : String × Bool :=
  if verb == some .update then ("Update an existing " ++ resource, false)
  else if verb == some .create || method == .post then ("Create a new " ++ resource, true)
  else (Text.capitalize resource ++ " information", true)

/-- The request body: as declared, or that of the resource where requests carry one. -/
def requestBody? (context : OperationContext) (e : Endpoint) : Option RequestBody :=
  match e.methodAnnotations.requestBody? with
  | some decl => some (context.declaredBody decl)
  | none =>
      if !e.method.isMutating then none
      else
        e.resource?.map fun resource =>
          let schema :=
            match context.model? e with
            | some model => context.modelFragment model
            | none => .genericInput (Text.capitalize resource)
          let (description, required) := bodySummary e.verb? e.method resource
          { description := some description, required, content := jsonContent schema }

/-! ## Responses -/

/-- A declared header. -/
def declaredHeader (description : String) : Header :=
  { description := some description, schema := some (.inline (.typed "string")) }

/-- A declared response. -/
def declaredResponse (context : OperationContext) (decl : ResponseDecl) : Response :=
  { description := decl.description.getD ("Response " ++ decl.status)
    headers := mapMembers declaredHeader decl.headers
    content := context.content decl.content decl.reference decl.properties }

/-- What a response on the resource of an endpoint holds. -/
def resourceFragment? (context : OperationContext) (e : Endpoint) : Option Fragment :=
  e.resource?.map fun resource =>
    match context.model? e with
    | some model => context.modelFragment model
    | none => .genericResource resource

/-- The responses by convention, the one for all other cases apart. -/
def methodResponses (context : OperationContext) (e : Endpoint) : List (String × Response) :=
  let resource := context.resourceFragment? e
  match e.method with
  | .get =>
      if e.verb? == some .list then
        [("200", .json "A paginated list of resources" (.page (resource.getD .anyObject)))]
      else if e.uri.toList.contains '\x7b' then
        [("200", .json "The requested resource" (resource.getD .anyObject)), ("404", .notFound)]
      else [("200", .json "Successful response" .anyObject)]
  | .post =>
      [("201", .json "Resource created successfully" (resource.getD .createdRecord)),
       ("422", .validationError)]
  | .put => updateResponses resource
  | .patch => updateResponses resource
  | .delete => [("204", { description := "Resource deleted successfully" }), ("404", .notFound)]
  | .head => []
  | .options => []
where
  /-- The responses to an update. -/
  updateResponses (resource : Option Fragment) : List (String × Response) :=
    [("200", .json "Resource updated successfully" (resource.getD .updatedRecord)),
     ("404", .notFound), ("422", .validationError)]

/-- The responses: those that are declared, or all by convention. -/
def responses (context : OperationContext) (e : Endpoint) : List (String × Response) :=
  match e.methodAnnotations.responses with
  | [] => context.methodResponses e ++ [("default", .unexpected)]
  | declared =>
      collectMembers (declared.map fun decl => (decl.status, context.declaredResponse decl))

/-! ## Security -/

/-- The schemes that a middleware such as `auth:bearer,basic` names. -/
def middlewareSchemes (middleware : String) : List String :=
  match Text.stripFront? "auth:".toList middleware.toList with
  | some schemes => (Text.splitChar ',' (String.ofList schemes)).map Text.trim
  | none => []

/-- The requirements of a route's middleware; only schemes that are there count. -/
def middlewareSecurity (context : OperationContext) (e : Endpoint) : List SecurityRequirement :=
  ((e.middleware.flatMap middlewareSchemes).filter fun name =>
    hasMember name context.schemes).map fun name => [(name, [])]

/-- The first list that is not empty. -/
def firstNonEmpty : List (List α) → List α
  | [] => []
  | [] :: rest => firstNonEmpty rest
  | (a :: list) :: _ => a :: list

/-- The requirements that apply to an endpoint: those of the operation, of the handler, of its type
or of the middleware, whichever come first. -/
def applicableSecurity (context : OperationContext) (e : Endpoint) : List SecurityRequirement :=
  firstNonEmpty [e.declared.security.getD [], e.methodAnnotations.security,
    e.typeAnnotations.security, context.middlewareSecurity e]

/-- The requirements on schemes that are there. -/
def security? (context : OperationContext) (e : Endpoint) : Option (List SecurityRequirement) :=
  match pruneRequirements context.schemes (context.applicableSecurity e) with
  | [] => none
  | requirements => some requirements

/-! ## Operations -/

/-- The operation of an endpoint that is not hidden. -/
def shownOperation (context : OperationContext) (e : Endpoint) : Operation :=
  { tags := tags e
    summary := some ((givenText e.declared.summary).getD (conventionalSummary e))
    description := some ((givenText e.declared.description).getD (conventionalDescription e))
    operationId := some (operationId e)
    parameters := context.parameters e
    requestBody := context.requestBody? e
    responses := context.responses e
    deprecated := if e.declared.deprecated == some true then some true else none
    security := context.security? e }

/-- The operation of an endpoint, unless it is hidden. -/
def operation? (context : OperationContext) (e : Endpoint) : Option Operation :=
  if e.isHidden then none else some (context.shownOperation e)

/-- An endpoint that is not hidden has an operation. -/
theorem operation?_of_shown (context : OperationContext) {e : Endpoint} (h : e.isHidden = false) :
    context.operation? e = some (context.shownOperation e) := by
  rw [operation?, h]
  rfl

/-- A hidden endpoint has no operation. -/
theorem operation?_of_hidden (context : OperationContext) {e : Endpoint} (h : e.isHidden = true) :
    context.operation? e = none := by
  rw [operation?, h]
  rfl

end OperationContext

/-! ## Tags of the document -/

/-- The tag of a group. -/
def ApiGroupDecl.tag (group : ApiGroupDecl) : Tag :=
  { name := group.name
    description := group.description
    externalDocs := group.externalDocs.map fun url => { url := url } }

/-- The tags that an endpoint adds to the document. -/
def Route.Endpoint.documentTags (e : Endpoint) : List Tag :=
  if e.isHidden then []
  else
    e.groups.map ApiGroupDecl.tag ++
      (e.declared.tags.getD []).map fun name => { name := name }

end AnnotatedApi
