import AnnotatedApi.OpenApi.Builder
import AnnotatedApi.Operation.Construction

/-! # Generating documents

A document is generated from the configuration, the endpoints and the models: the schemas of the
models, the parts that the configuration declares, and the operations of the endpoints. -/

namespace AnnotatedApi

open Route

namespace Document

/-- The information of a configuration, without a contact that says nothing. -/
def infoOf (config : Config) : Info :=
  { config.info with contact := config.info.contact.filter fun c => !c.isEmpty }

/-- The names of models. -/
def namesOf (models : List Model) : ModelNames :=
  .ofIdentifiers (models.map Model.identifier)

/-- The complete security schemes of a configuration. -/
def schemesOf (config : Config) : List (String × SecurityScheme) :=
  config.securitySchemes.filter fun entry => entry.2.isComplete

/-- The content of a body with all references resolved. -/
def resolveContent (names : ModelNames) (content : List (String × MediaType)) :
    List (String × MediaType) :=
  mapMembers (fun m => { m with schema := m.schema.map names.resolveFragment }) content

/-- A response with all references resolved. -/
def resolveResponse (names : ModelNames) (response : Response) : Response :=
  { response with
    content := resolveContent names response.content
    headers := mapMembers
      (fun h => { h with schema := h.schema.map names.resolveFragment }) response.headers }

/-- A parameter with all references resolved. -/
def resolveParameter (names : ModelNames) (parameter : Parameter) : Parameter :=
  { parameter with schema := parameter.schema.map names.resolveFragment }

/-- What operations are built from in a document. -/
def contextOf (config : Config) (models : List Model) : OperationContext :=
  { names := namesOf models, models, schemes := collectMembers (schemesOf config) }

/-- The document without operations and tags. -/
def skeleton (config : Config) (models : List Model) : Document :=
  let names := namesOf models
  let document := { ofInfo (infoOf config) with servers := config.servers }
  let document := models.foldl
    (fun document model => document.addSchema model.name (model.fragment names)) document
  let document := (schemesOf config).foldl
    (fun document (name, scheme) => document.addSecurityScheme name scheme) document
  let document := config.parameters.foldl
    (fun document (name, parameter) =>
      document.addParameter name (resolveParameter names parameter)) document
  let document := config.responses.foldl
    (fun document (name, response) =>
      document.addResponse name (resolveResponse names response)) document
  { document with
    security := pruneRequirements document.components.securitySchemes config.security }

/-- Add the operation and the tags of an endpoint, unless it is hidden. -/
def addEndpoint (context : OperationContext) (document : Document) (e : Endpoint) : Document :=
  match context.operation? e with
  | none => document
  | some operation =>
      let document := e.documentTags.foldl (fun document tag => document.addTag tag) document
      document.addOperation e.path e.method operation

/-- The document of endpoints and models. -/
def generate (config : Config) (endpoints : List Endpoint) (models : List Model) : Document :=
  let document := endpoints.foldl (addEndpoint (contextOf config models)) (skeleton config models)
  (config.tags.foldl (fun document tag => document.addTag tag) document).finish

end Document

end AnnotatedApi
