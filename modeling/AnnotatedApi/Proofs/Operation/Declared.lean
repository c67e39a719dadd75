import AnnotatedApi.Operation.Construction
import AnnotatedApi.Proofs.Members

/-! # What is declared stays

Conventions only fill in what a handler does not declare. `KeepsDeclared` lists what an operation
takes over from the annotations of a handler and its type, and `SameDeclared` says that two
operations have all of it in common. The first determines the second, so what is declared does not
depend on anything else that operations are built from. -/

namespace AnnotatedApi

open Route

/-! ## Declared parts of operations -/

/-- A text is given when it is there and not empty. -/
def IsGiven (text : Option String) : Prop :=
  ∃ words, text = some words ∧ words ≠ ""

namespace Annotations

/-- The declared operation, which says nothing when none is declared. -/
def declared (method : Annotations) : OperationDecl :=
  method.operation?.getD {}

/-- The names of the groups of a type, of those of a handler in it, and the declared tags. -/
def listedTags (type method : Annotations) : List String :=
  type.apiGroups.map ApiGroupDecl.name ++ method.apiGroups.map ApiGroupDecl.name ++
    method.declared.tags.getD []

end Annotations

/-- An operation has everything that the annotations of a handler and its type declare. -/
structure KeepsDeclared (context : OperationContext) (type method : Annotations)
    (operation : Operation) : Prop where
  /-- A summary that is given stays. -/
  summary : IsGiven method.declared.summary → operation.summary = method.declared.summary
  /-- A description that is given stays. -/
  description : IsGiven method.declared.description →
    operation.description = method.declared.description
  /-- An identifier that is given stays. -/
  operationId : IsGiven method.declared.operationId →
    operation.operationId = method.declared.operationId
  /-- The operation is deprecated exactly when it is declared to be, and is never said not to be. -/
  deprecated : operation.deprecated =
    if method.declared.deprecated = some true then some true else none
  /-- Tags that are listed are the tags, in the order of first occurrence. -/
  tags : type.listedTags method ≠ [] → FirstSeen (type.listedTags method) operation.tags
  /-- The first parameters are the declared ones. -/
  parameters : method.parameters.map context.declaredParameter <+: operation.parameters
  /-- The request body is the first that is declared. -/
  requestBody : ∀ decl ∈ method.requestBody?,
    operation.requestBody = some (context.declaredBody decl)
  /-- Where a response is declared, there are responses of the declared statuses only. -/
  statuses : method.responses ≠ [] →
    FirstSeen (method.responses.map ResponseDecl.status) (memberNames operation.responses)
  /-- Where a response is declared, the response of a status is the last that is declared. -/
  responses : method.responses ≠ [] → ∀ status,
    getMember? status operation.responses =
      ((method.responses.filter fun decl => decl.status = status).getLast?).map
        context.declaredResponse

/-- Two operations have everything in common that the annotations declare. -/
structure SameDeclared (type method : Annotations) (first second : Operation) : Prop where
  /-- A summary that is given is in both. -/
  summary : IsGiven method.declared.summary → first.summary = second.summary
  /-- A description that is given is in both. -/
  description : IsGiven method.declared.description → first.description = second.description
  /-- An identifier that is given is in both. -/
  operationId : IsGiven method.declared.operationId → first.operationId = second.operationId
  /-- Both are deprecated or none is. -/
  deprecated : first.deprecated = second.deprecated
  /-- Tags that are listed are in both. -/
  tags : type.listedTags method ≠ [] → first.tags = second.tags
  /-- The declared parameters are in both. -/
  parameters : first.parameters.take method.parameters.length =
    second.parameters.take method.parameters.length
  /-- A declared request body is in both. -/
  requestBody : method.requestBody?.isSome → first.requestBody = second.requestBody
  /-- Where a response is declared, both have the same responses. -/
  responses : method.responses ≠ [] → first.responses = second.responses

/-- What operations take over from the same annotations is the same. -/
theorem KeepsDeclared.same {context : OperationContext} {type method : Annotations}
    {first second : Operation} (h : KeepsDeclared context type method first)
    (h' : KeepsDeclared context type method second) : SameDeclared type method first second where
  summary hgiven := (h.summary hgiven).trans (h'.summary hgiven).symm
  description hgiven := (h.description hgiven).trans (h'.description hgiven).symm
  operationId hgiven := (h.operationId hgiven).trans (h'.operationId hgiven).symm
  deprecated := h.deprecated.trans h'.deprecated.symm
  tags hlisted := (h.tags hlisted).unique (h'.tags hlisted)
  parameters := by
    have htake : ∀ parameters : List Parameter,
        method.parameters.map context.declaredParameter <+: parameters →
        parameters.take method.parameters.length =
          method.parameters.map context.declaredParameter := by
      intro parameters hfront
      rw [List.prefix_iff_eq_take, List.length_map] at hfront
      exact hfront.symm
    rw [htake _ h.parameters, htake _ h'.parameters]
  requestBody hsome := by
    obtain ⟨decl, hdecl⟩ := Option.isSome_iff_exists.mp hsome
    rw [h.requestBody decl hdecl, h'.requestBody decl hdecl]
  responses hdeclared := by
    have hstatuses := h.statuses hdeclared
    refine eq_of_getMember? (hstatuses.unique (h'.statuses hdeclared)) hstatuses.nodup ?_
    intro status
    rw [h.responses hdeclared, h'.responses hdeclared]

/-- Only the names of models matter for what is declared, as references are resolved with them. -/
theorem KeepsDeclared.of_names_eq {context other : OperationContext} {type method : Annotations}
    {operation : Operation} (h : KeepsDeclared context type method operation)
    (hnames : other.names = context.names) : KeepsDeclared other type method operation := by
  -- what is declared is built from the names of a context alone
  cases context
  cases other
  cases hnames
  exact ⟨h.summary, h.description, h.operationId, h.deprecated, h.tags, h.parameters,
    h.requestBody, h.statuses, h.responses⟩

/-! ## Filling in -/

/-- A given text is not filled in. -/
theorem IsGiven.givenText_eq {text : Option String} (h : IsGiven text) : givenText text = text := by
  obtain ⟨words, rfl, hne⟩ := h
  rw [givenText, Option.filter_some, if_pos (bne_iff_ne.mpr hne)]

/-- What is given takes the place of what would be filled in. -/
theorem IsGiven.some_getD {text : Option String} (h : IsGiven text) (fallback : String) :
    some ((givenText text).getD fallback) = text := by
  rw [h.givenText_eq]
  obtain ⟨words, rfl, -⟩ := h
  rfl

namespace OperationContext

variable (context : OperationContext)

/-- Parameters that are added come after those that are there. -/
theorem prefix_foldl_addParameter (added parameters : List Parameter) :
    parameters <+: added.foldl addParameter parameters := by
  refine List.foldlRecOn (motive := fun done => parameters <+: done) _ _
    (List.prefix_refl parameters) ?_
  intro done hdone p _
  rw [addParameter]
  split
  · exact hdone
  · exact hdone.trans (List.prefix_append done [p])

/-- The tags of an endpoint are those that are listed, if there are any. -/
theorem firstSeen_tags {e : Endpoint}
    (h : e.typeAnnotations.listedTags e.methodAnnotations ≠ []) :
    FirstSeen (e.typeAnnotations.listedTags e.methodAnnotations) (tags e) := by
  have hdeclared : e.declaredTags =
      (e.typeAnnotations.listedTags e.methodAnnotations).eraseDups := by
    rw [Endpoint.declaredTags, Endpoint.groups, List.map_append]
    rfl
  have hfirst := firstSeen_eraseDups (e.typeAnnotations.listedTags e.methodAnnotations)
  rw [← hdeclared] at hfirst
  rw [tags]
  split
  · next hnil =>
    -- a list with elements has some left without its repetitions
    obtain ⟨tag, htag⟩ := List.exists_mem_of_ne_nil _ h
    rw [hnil] at hfirst
    exact absurd ((hfirst.mem_iff tag).mpr htag) List.not_mem_nil
  · exact hfirst

/-- Where responses are declared, they are collected and nothing is added to them. -/
theorem responses_of_ne_nil {e : Endpoint} (h : e.methodAnnotations.responses ≠ []) :
    context.responses e =
      collectMembers (e.methodAnnotations.responses.map fun decl =>
        (decl.status, context.declaredResponse decl)) := by
  rw [responses]
  split
  · next hnil => exact absurd hnil h
  · rfl

/-- The operation of an endpoint has everything that is declared. -/
theorem keepsDeclared_shownOperation (e : Endpoint) :
    KeepsDeclared context e.typeAnnotations e.methodAnnotations (context.shownOperation e) where
  summary hgiven := hgiven.some_getD _
  description hgiven := hgiven.some_getD _
  operationId hgiven := by
    have hoperationId : operationId e =
        (givenText e.methodAnnotations.declared.operationId <|> e.name).getD
          (operationIdFor e.method e.path) := rfl
    rw [shownOperation, hoperationId, hgiven.givenText_eq]
    obtain ⟨words, hwords, -⟩ := hgiven
    rw [hwords]
    rfl
  deprecated := by
    rw [shownOperation]
    exact if_congr beq_iff_eq rfl rfl
  tags := firstSeen_tags
  parameters := prefix_foldl_addParameter _ _
  requestBody := by
    intro decl hdecl
    rw [shownOperation, requestBody?, Option.mem_def.mp hdecl]
  statuses := by
    intro hdeclared
    rw [shownOperation, context.responses_of_ne_nil hdeclared]
    have hfirst := firstSeen_collectMembers (e.methodAnnotations.responses.map fun decl =>
      (decl.status, context.declaredResponse decl))
    rw [memberNames, List.map_map] at hfirst
    exact hfirst
  responses := by
    intro hdeclared status
    rw [shownOperation, context.responses_of_ne_nil hdeclared, getMember?_collectMembers,
      List.filter_map, List.getLast?_map, Option.map_map]
    rfl

/-- An endpoint that is not hidden has an operation with everything that is declared for it. Another
endpoint with the same annotations has the same, whatever its method, address, name, middleware and
handler are and whatever the models of the same names hold. -/
theorem keepsDeclared_operation? {e : Endpoint} (h : e.isHidden = false) :
    ∃ operation, context.operation? e = some operation ∧
      KeepsDeclared context e.typeAnnotations e.methodAnnotations operation ∧
      ∀ (other : OperationContext) (e' : Endpoint), other.names = context.names →
        e'.typeAnnotations = e.typeAnnotations → e'.methodAnnotations = e.methodAnnotations →
        ∃ operation', other.operation? e' = some operation' ∧
          SameDeclared e.typeAnnotations e.methodAnnotations operation operation' := by
  have hkeeps := context.keepsDeclared_shownOperation e
  refine ⟨context.shownOperation e, context.operation?_of_shown h, hkeeps, ?_⟩
  intro other e' hnames htype hmethod
  -- whether an endpoint is hidden is a matter of its annotations too
  have hshown : e'.isHidden = false := by
    rw [Endpoint.isHidden, htype, hmethod]
    exact h
  refine ⟨other.shownOperation e', other.operation?_of_shown hshown, ?_⟩
  have hother := other.keepsDeclared_shownOperation e'
  rw [htype, hmethod] at hother
  exact hkeeps.same (hother.of_names_eq hnames.symm)

/-- The handler that starts a task answers `get`, and declares a summary, a body and responses. -/
def startTask : Endpoint where
  method := .get
  uri := "/tasks/start"
  parameters := []
  typeAnnotations := [.apiGroup { name := "Tasks" }]
  methodAnnotations :=
    [.operation { summary := some "Start a task", tags := some ["Tasks", "Runs"] },
      .requestBody { description := some "What to start" },
      .response { status := "409" }, .response { status := "202" },
      .response { status := "409", description := some "Started before" }]

/-- What there is to build operations from without models and security schemes. -/
def bare : OperationContext where
  names := .ofIdentifiers []
  models := []
  schemes := []

/-- What the handler that starts a task declares is in its operation. -/
theorem keepsDeclared_startTask :
    startTask.isHidden = false ∧ ∃ operation, bare.operation? startTask = some operation ∧
      operation.summary = some "Start a task" ∧ operation.tags = ["Tasks", "Runs"] ∧
      operation.requestBody.isSome ∧ memberNames operation.responses = ["409", "202"] ∧
      (getMember? "409" operation.responses).map Response.description = some "Started before" := by
  have hshown : startTask.isHidden = false := rfl
  obtain ⟨operation, hoperation, hkeeps, -⟩ := keepsDeclared_operation? bare hshown
  have hgiven : IsGiven startTask.methodAnnotations.declared.summary := ⟨_, rfl, by decide⟩
  have hlisted : startTask.typeAnnotations.listedTags startTask.methodAnnotations ≠ [] :=
    List.cons_ne_nil _ _
  have hdeclared : startTask.methodAnnotations.responses ≠ [] := List.cons_ne_nil _ _
  refine ⟨hshown, operation, hoperation, hkeeps.summary hgiven, ?_, ?_, ?_, ?_⟩
  · exact (hkeeps.tags hlisted).eq_eraseDups
  · rw [hkeeps.requestBody _ rfl]
    rfl
  · exact (hkeeps.statuses hdeclared).eq_eraseDups
  · rw [hkeeps.responses hdeclared]
    rfl

end OperationContext

end AnnotatedApi
