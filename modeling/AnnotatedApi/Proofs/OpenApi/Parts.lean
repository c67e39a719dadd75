import AnnotatedApi.OpenApi.Generation
import AnnotatedApi.Proofs.Members

/-! # Generated documents part by part

A document is generated by steps on the whole document. As each step changes one part only, every
part can be said by itself: `Document.generate_eq` gives all parts of a generated document, and
other laws of generation start from it. -/

namespace AnnotatedApi.Document

open Route

/-! ## The parts -/

/-- The endpoints that are documented: those that are not hidden. -/
def shown (endpoints : List Endpoint) : List Endpoint :=
  endpoints.filter fun e => !e.isHidden

/-- Put the operation of an endpoint under its address and method. -/
def putOperation (context : OperationContext) (paths : List (String × PathItem)) (e : Endpoint) :
    List (String × PathItem) :=
  putMember e.path
    (putMember e.method.name (context.shownOperation e) ((getMember? e.path paths).getD [])) paths

/-- The operations of endpoints by address and method. -/
def pathsOf (context : OperationContext) (endpoints : List Endpoint) : List (String × PathItem) :=
  endpoints.foldl (putOperation context) []

/-- The schemas of models, under each name that of the first model. -/
def schemasOf (models : List Model) : List (String × Fragment) :=
  models.foldl
    (fun schemas model => addMember model.name (model.fragment (namesOf models)) schemas) []

/-- What the operations of a document share. -/
def componentsOf (config : Config) (models : List Model) : Components where
  schemas := schemasOf models
  securitySchemes := collectMembers (schemesOf config)
  parameters := collectMembers (mapMembers (resolveParameter (namesOf models)) config.parameters)
  responses := collectMembers (mapMembers (resolveResponse (namesOf models)) config.responses)

/-- Tags added one after the other. -/
def tagsOf (tags : List Tag) : List Tag :=
  tags.foldl (fun done tag => AnnotatedApi.addTag tag done) []

/-- A hidden endpoint in front is left out. -/
theorem shown_cons (e : Endpoint) (rest : List Endpoint) :
    shown (e :: rest) = if e.isHidden then shown rest else e :: shown rest := by
  rw [shown, List.filter_cons]
  cases e.isHidden <;> rfl

/-- An endpoint is documented when it is there and not hidden. -/
theorem mem_shown_iff {e : Endpoint} {endpoints : List Endpoint} :
    e ∈ shown endpoints ↔ e ∈ endpoints ∧ e.isHidden = false := by
  rw [shown, List.mem_filter, Bool.not_eq_true']

/-- Documented endpoints are documented still when the hidden ones are left out. -/
@[simp] theorem shown_shown (endpoints : List Endpoint) :
    shown (shown endpoints) = shown endpoints := by
  rw [shown, shown, List.filter_filter]
  simp only [Bool.and_self]

/-! ## Loops on one part -/

section Loops

variable (document : Document)

theorem foldl_addSchema (models : List Model) (names : ModelNames) :
    models.foldl (fun document model => document.addSchema model.name (model.fragment names))
        document =
      { document with components := { document.components with
          schemas := models.foldl
            (fun schemas model => addMember model.name (model.fragment names) schemas)
            document.components.schemas } } :=
  List.foldl_hom (fun schemas : List (String × Fragment) =>
    { document with components := { document.components with schemas } }) fun _ _ => rfl

theorem foldl_addSecurityScheme (schemes : List (String × SecurityScheme)) :
    schemes.foldl (fun document (name, scheme) => document.addSecurityScheme name scheme)
        document =
      { document with components := { document.components with
          securitySchemes := putMembers schemes document.components.securitySchemes } } :=
  List.foldl_hom (fun securitySchemes : List (String × SecurityScheme) =>
    { document with components := { document.components with securitySchemes } }) fun _ _ => rfl

theorem foldl_addParameter (parameters : List (String × Parameter)) (names : ModelNames) :
    parameters.foldl
        (fun document (name, p) => document.addParameter name (resolveParameter names p))
        document =
      { document with components := { document.components with
          parameters := putMembers (mapMembers (resolveParameter names) parameters)
            document.components.parameters } } := by
  rw [putMembers, mapMembers, List.foldl_map]
  refine List.foldl_hom (fun parameters : List (String × Parameter) =>
    { document with components := { document.components with parameters } }) ?_
  intro done entry
  rfl

theorem foldl_addResponse (responses : List (String × Response)) (names : ModelNames) :
    responses.foldl
        (fun document (name, r) => document.addResponse name (resolveResponse names r)) document =
      { document with components := { document.components with
          responses := putMembers (mapMembers (resolveResponse names) responses)
            document.components.responses } } := by
  rw [putMembers, mapMembers, List.foldl_map]
  refine List.foldl_hom (fun responses : List (String × Response) =>
    { document with components := { document.components with responses } }) ?_
  intro done entry
  rfl

theorem foldl_addTag (tags : List Tag) :
    tags.foldl (fun document tag => document.addTag tag) document =
      { document with
        tags := tags.foldl (fun done tag => AnnotatedApi.addTag tag done) document.tags } :=
  List.foldl_hom (fun tags : List Tag => { document with tags }) fun _ _ => rfl

end Loops

/-! ## Endpoints -/

/-- An endpoint that is not hidden adds its operation and its tags. -/
theorem addEndpoint_of_shown (context : OperationContext) (document : Document) {e : Endpoint}
    (h : e.isHidden = false) :
    addEndpoint context document e =
      { document with
        paths := putOperation context document.paths e
        tags := e.documentTags.foldl (fun done tag => AnnotatedApi.addTag tag done)
          document.tags } := by
  rw [addEndpoint, context.operation?_of_shown h]
  dsimp only
  rw [foldl_addTag]
  rfl

/-- A hidden endpoint adds nothing. -/
theorem addEndpoint_of_hidden (context : OperationContext) (document : Document) {e : Endpoint}
    (h : e.isHidden = true) : addEndpoint context document e = document := by
  rw [addEndpoint, context.operation?_of_hidden h]

/-- Endpoints add the operations and the tags of those that are not hidden. -/
theorem foldl_addEndpoint (context : OperationContext) (endpoints : List Endpoint)
    (document : Document) :
    endpoints.foldl (addEndpoint context) document =
      { document with
        paths := (shown endpoints).foldl (putOperation context) document.paths
        tags := ((shown endpoints).flatMap Endpoint.documentTags).foldl
          (fun done tag => AnnotatedApi.addTag tag done) document.tags } := by
  -- each endpoint changes the document that the rest start from
  induction endpoints generalizing document with
  | nil => rfl
  | cons e rest ih =>
      rw [List.foldl_cons, ih, shown_cons]
      cases h : e.isHidden with
      | true =>
          rw [addEndpoint_of_hidden context document h]
          rfl
      | false =>
          rw [addEndpoint_of_shown context document h, if_neg Bool.false_ne_true,
            List.flatMap_cons, List.foldl_append]
          rfl

/-! ## The whole document -/

/-- The parts of a document before its endpoints are added. -/
theorem skeleton_eq (config : Config) (models : List Model) :
    skeleton config models =
      { version := openApiVersion
        info := infoOf config
        servers := config.servers
        components := componentsOf config models
        security := pruneRequirements (contextOf config models).schemes config.security } := by
  rw [skeleton]
  simp only [foldl_addSchema, foldl_addSecurityScheme, foldl_addParameter, foldl_addResponse]
  rfl

/-- The parts of a generated document. -/
theorem generate_eq (config : Config) (endpoints : List Endpoint) (models : List Model) :
    generate config endpoints models =
      { version := openApiVersion
        info := infoOf config
        servers := if config.servers.isEmpty then [.default] else config.servers
        paths := pathsOf (contextOf config models) (shown endpoints)
        components := componentsOf config models
        security := pruneRequirements (contextOf config models).schemes config.security
        tags := tagsOf ((shown endpoints).flatMap Endpoint.documentTags ++ config.tags) } := by
  rw [generate]
  simp only [foldl_addEndpoint, foldl_addTag, skeleton_eq, finish, tagsOf, List.foldl_append]
  rfl

end AnnotatedApi.Document
