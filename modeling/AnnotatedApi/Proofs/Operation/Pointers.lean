import AnnotatedApi.Operation.Construction
import AnnotatedApi.Proofs.Schema.Resolved

/-! # The pointers of operations

An operation holds pointers in its parameters, in its request body and in its responses. Those that
are declared come out of declarations, whose fragments are resolved; those by convention hold
references to models and shapes without pointers. -/

namespace AnnotatedApi

/-! ## Collecting pointers -/

/-- The pointers of a parameter. -/
def Parameter.pointers (p : Parameter) : List String :=
  p.schema.toList.flatMap Fragment.pointers

/-- The pointers of the content of one media type. -/
def MediaType.pointers (m : MediaType) : List String :=
  m.schema.toList.flatMap Fragment.pointers

/-- The pointers of a header. -/
def Header.pointers (h : Header) : List String :=
  h.schema.toList.flatMap Fragment.pointers

/-- The pointers of a request body. -/
def RequestBody.pointers (b : RequestBody) : List String :=
  b.content.flatMap fun entry => entry.2.pointers

/-- The pointers of a response. -/
def Response.pointers (r : Response) : List String :=
  r.headers.flatMap (fun entry => entry.2.pointers) ++
    r.content.flatMap fun entry => entry.2.pointers

/-- The pointers of an operation. -/
def Operation.pointers (o : Operation) : List String :=
  o.parameters.flatMap Parameter.pointers ++ o.requestBody.toList.flatMap RequestBody.pointers ++
    o.responses.flatMap fun entry => entry.2.pointers

variable {names : ModelNames}

/-! ## Conventional shapes -/

/-- A page has the pointers of its items and no others. -/
theorem Fragment.pointers_page (items : Fragment) : (page items).pointers = items.pointers := by
  have hitems : (Fragment.inline (.arrayOf items)).pointers = items.pointers :=
    List.append_nil _
  have hpage : (page items).pointers = (Fragment.inline (.arrayOf items)).pointers ++ [] := rfl
  rw [hpage, hitems, List.append_nil]

/-- JSON content has the pointers of its fragment. -/
theorem pointers_jsonContent (fragment : Fragment) :
    ((jsonContent fragment).flatMap fun entry => entry.2.pointers) = fragment.pointers := by
  have hcontent : ((jsonContent fragment).flatMap fun entry => entry.2.pointers) =
      (fragment.pointers ++ []) ++ [] := rfl
  rw [hcontent, List.append_nil, List.append_nil]

/-- The content of a resolved fragment holds given pointers. -/
theorem givesAll_jsonContent {fragment : Fragment} (h : fragment.Resolved names) :
    ∀ entry ∈ jsonContent fragment, names.GivesAll entry.2.pointers := by
  rw [← ModelNames.givesAll_flatMap_iff, pointers_jsonContent]
  exact h

namespace Response

/-- A response of a fragment has the pointers of the fragment. -/
theorem pointers_json (description : String) (fragment : Fragment) :
    (Response.json description fragment).pointers = fragment.pointers :=
  pointers_jsonContent fragment

/-- A response holds given pointers when its headers and its content do. -/
theorem givesAll_iff {r : Response} :
    names.GivesAll r.pointers ↔
      (∀ entry ∈ r.headers, names.GivesAll entry.2.pointers) ∧
        ∀ entry ∈ r.content, names.GivesAll entry.2.pointers := by
  rw [Response.pointers, ModelNames.givesAll_append_iff, ModelNames.givesAll_flatMap_iff,
    ModelNames.givesAll_flatMap_iff]

end Response

/-! ## What is declared -/

namespace OperationContext

variable (context : OperationContext)

/-- A declared parameter holds given pointers. -/
theorem givesAll_declaredParameter (decl : ParameterDecl) :
    context.names.GivesAll (context.declaredParameter decl).pointers :=
  givesAll_toList_iff.mpr (resolvedOption_map SchemaDecl.resolved_fragment _)

/-- Declared content holds given pointers. -/
theorem givesAll_declaredContent (decls : List MediaTypeDecl) :
    ∀ entry ∈ context.declaredContent decls, context.names.GivesAll entry.2.pointers := by
  refine forall_mem_collectMembers ?_
  intro entry hentry
  obtain ⟨decl, -, rfl⟩ := List.mem_map.mp hentry
  exact givesAll_toList_iff.mpr (resolvedOption_map SchemaDecl.resolved_fragment _)

/-- The content of a body holds given pointers, wherever it comes from. -/
theorem givesAll_content (decls : List MediaTypeDecl) (reference : Option String)
    (properties : List PropertyDecl) :
    ∀ entry ∈ context.content decls reference properties,
      context.names.GivesAll entry.2.pointers := by
  rw [content]
  split
  · exact context.givesAll_declaredContent decls
  · split
    · next fragment hfragment =>
      exact givesAll_jsonContent (ModelNames.resolved_of_optionalFragment? hfragment)
    · split
      · exact List.forall_mem_nil _
      · exact givesAll_jsonContent (resolved_objectOfProperties properties)

/-- A declared request body holds given pointers. -/
theorem givesAll_declaredBody (decl : RequestBodyDecl) :
    context.names.GivesAll (context.declaredBody decl).pointers :=
  ModelNames.givesAll_flatMap_iff.mpr (context.givesAll_content _ _ _)

/-- A declared response holds given pointers. -/
theorem givesAll_declaredResponse (decl : ResponseDecl) :
    context.names.GivesAll (context.declaredResponse decl).pointers := by
  rw [Response.givesAll_iff]
  refine ⟨?_, context.givesAll_content _ _ _⟩
  -- a declared header is a string, whatever it describes
  refine forall_mem_mapMembers ?_
  intro entry _
  exact ModelNames.givesAll_nil

/-! ## What is there by convention -/

/-- The pointers by which an endpoint refers to the model that it handles. -/
def modelPointers (e : Route.Endpoint) : List String :=
  (context.model? e).toList.flatMap fun model => (context.modelFragment model).pointers

/-- The reference to a model is resolved. -/
theorem resolved_modelFragment (model : Model) :
    (context.modelFragment model).Resolved context.names := by
  rw [modelFragment]
  cases hfragment : context.names.fragment? model.identifier with
  | none => exact ModelNames.givesAll_nil
  | some fragment => exact ModelNames.resolved_of_fragment? hfragment

/-- The pointers by which an endpoint refers to its model are given. -/
theorem givesAll_modelPointers (e : Route.Endpoint) :
    context.names.GivesAll (context.modelPointers e) := by
  rw [modelPointers, ModelNames.givesAll_flatMap_iff]
  intro model _
  exact context.resolved_modelFragment model

/-- The schema of a parameter in the address has no elements and no properties. -/
theorem resolved_pathSchema (pattern : Option String) : (pathSchema pattern).Resolved names := by
  cases pattern with
  | none => exact Schema.resolved_typed _
  | some p =>
      rw [pathSchema]
      split
      · exact Schema.resolved_typed _
      · split <;> exact Schema.resolved_of_flat rfl rfl

/-- The parameters by convention have no pointers. -/
theorem givesAll_discoveredParameters (e : Route.Endpoint) :
    ∀ p ∈ discoveredParameters e, context.names.GivesAll p.pointers := by
  rw [discoveredParameters, List.forall_mem_append]
  constructor
  · intro p hp
    obtain ⟨name, -, rfl⟩ := List.mem_map.mp hp
    refine givesAll_toList_iff.mpr (resolvedOption_some ?_)
    exact Fragment.resolved_inline_iff.mpr (resolved_pathSchema _)
  · split
    · rw [← ModelNames.givesAll_flatMap_iff]
      exact ModelNames.givesAll_nil
    · exact List.forall_mem_nil _

/-- What a response on a resource holds refers to the model and to nothing else, also when another
shape stands in for it. -/
theorem pointers_getD_resourceFragment? (e : Route.Endpoint) {fallback : Fragment}
    (h : fallback.pointers = []) :
    ((context.resourceFragment? e).getD fallback).pointers = context.modelPointers e := by
  rw [resourceFragment?, modelPointers, model?]
  cases e.resource? with
  | none => exact h
  | some resource =>
      rw [Option.map_some, Option.getD_some, Option.bind_some]
      cases modelNamed? context.models resource with
      | none => rfl
      | some model => exact (List.append_nil _).symm

/-- A request body by convention refers to the model and to nothing else. -/
theorem pointers_requestBody? {e : Route.Endpoint} (h : e.methodAnnotations.requestBody? = none)
    {body : RequestBody} (hbody : body ∈ context.requestBody? e) :
    body.pointers = context.modelPointers e := by
  rw [requestBody?, h] at hbody
  dsimp only at hbody
  split at hbody
  · exact absurd hbody (Option.not_mem_none _)
  · obtain ⟨resource, -, rfl⟩ := Option.map_eq_some_iff.mp hbody
    rw [RequestBody.pointers, pointers_jsonContent, modelPointers]
    cases context.model? e with
    | none => rfl
    | some model => exact (List.append_nil _).symm

/-- The responses by convention refer to the model and to nothing else. -/
theorem pointers_methodResponses (e : Route.Endpoint) :
    ∀ entry ∈ context.methodResponses e, entry.2.pointers ⊆ context.modelPointers e := by
  -- where the resource is not known, an object stands in for it
  have hresource : ∀ (description : String) {fallback : Fragment}, fallback.pointers = [] →
      (Response.json description ((context.resourceFragment? e).getD fallback)).pointers ⊆
        context.modelPointers e := by
    intro description fallback hfallback
    rw [Response.pointers_json, context.pointers_getD_resourceFragment? e hfallback]
    exact List.Subset.refl _
  have hupdate : ∀ entry ∈ methodResponses.updateResponses (context.resourceFragment? e),
      entry.2.pointers ⊆ context.modelPointers e := by
    rw [methodResponses.updateResponses]
    simp only [List.forall_mem_cons]
    exact ⟨hresource _ rfl, List.nil_subset _, List.nil_subset _, List.forall_mem_nil _⟩
  rw [methodResponses]
  cases e.method with
  | get =>
      dsimp only
      split
      · -- a list
        rw [List.forall_mem_singleton, Response.pointers_json, Fragment.pointers_page,
          context.pointers_getD_resourceFragment? e rfl]
        exact List.Subset.refl _
      · split
        · -- one resource
          simp only [List.forall_mem_cons]
          exact ⟨hresource _ rfl, List.nil_subset _, List.forall_mem_nil _⟩
        · -- anything else
          rw [List.forall_mem_singleton]
          exact List.nil_subset _
  | post =>
      simp only [List.forall_mem_cons]
      exact ⟨hresource _ rfl, List.nil_subset _, List.forall_mem_nil _⟩
  | put => exact hupdate
  | patch => exact hupdate
  | delete =>
      simp only [List.forall_mem_cons]
      exact ⟨List.nil_subset _, List.nil_subset _, List.forall_mem_nil _⟩
  | head => exact List.forall_mem_nil _
  | options => exact List.forall_mem_nil _

/-- Where no response is declared, the responses refer to the model and to nothing else. -/
theorem pointers_responses {e : Route.Endpoint} (h : e.methodAnnotations.responses = []) :
    ∀ entry ∈ context.responses e, entry.2.pointers ⊆ context.modelPointers e := by
  rw [responses, h]
  dsimp only
  rw [List.forall_mem_append, List.forall_mem_singleton]
  exact ⟨context.pointers_methodResponses e, List.nil_subset _⟩

/-! ## Whole operations -/

/-- Adding a parameter keeps what holds of all parameters. -/
theorem forall_mem_addParameter {P : Parameter → Prop} {parameters : List Parameter}
    {p : Parameter} (hnew : P p) (hold : ∀ q ∈ parameters, P q) :
    ∀ q ∈ addParameter parameters p, P q := by
  rw [addParameter]
  split
  · exact hold
  · rw [List.forall_mem_append, List.forall_mem_singleton]
    exact ⟨hold, hnew⟩

/-- The parameters of an operation hold given pointers. -/
theorem givesAll_parameters (e : Route.Endpoint) :
    ∀ p ∈ context.parameters e, context.names.GivesAll p.pointers := by
  have hdeclared : ∀ p ∈ e.methodAnnotations.parameters.map context.declaredParameter,
      context.names.GivesAll p.pointers := by
    intro p hp
    obtain ⟨decl, -, rfl⟩ := List.mem_map.mp hp
    exact context.givesAll_declaredParameter decl
  rw [parameters]
  refine List.foldlRecOn
    (motive := fun done : List Parameter => ∀ p ∈ done, context.names.GivesAll p.pointers)
    _ _ hdeclared ?_
  intro done hdone p hp
  exact forall_mem_addParameter (context.givesAll_discoveredParameters e p hp) hdone

/-- The request body of an operation holds given pointers. -/
theorem givesAll_requestBody? (e : Route.Endpoint) :
    ∀ body ∈ context.requestBody? e, context.names.GivesAll body.pointers := by
  intro body hbody
  cases hdecl : e.methodAnnotations.requestBody? with
  | none =>
      rw [context.pointers_requestBody? hdecl hbody]
      exact context.givesAll_modelPointers e
  | some decl =>
      rw [requestBody?, hdecl, Option.mem_some_iff] at hbody
      rw [← hbody]
      exact context.givesAll_declaredBody decl

/-- The responses of an operation hold given pointers. -/
theorem givesAll_responses (e : Route.Endpoint) :
    ∀ entry ∈ context.responses e, context.names.GivesAll entry.2.pointers := by
  cases hdeclared : e.methodAnnotations.responses with
  | nil =>
      intro entry hentry pointer hpointer
      exact context.givesAll_modelPointers e pointer
        (context.pointers_responses hdeclared entry hentry hpointer)
  | cons first rest =>
      rw [responses, hdeclared]
      refine forall_mem_collectMembers ?_
      intro entry hentry
      obtain ⟨decl, -, rfl⟩ := List.mem_map.mp hentry
      exact context.givesAll_declaredResponse decl

/-- An operation holds given pointers only. -/
theorem givesAll_shownOperation (e : Route.Endpoint) :
    context.names.GivesAll (context.shownOperation e).pointers := by
  rw [Operation.pointers, ModelNames.givesAll_append_iff, ModelNames.givesAll_append_iff]
  simp only [ModelNames.givesAll_flatMap_iff, Option.mem_toList]
  exact ⟨⟨context.givesAll_parameters e, context.givesAll_requestBody? e⟩,
    context.givesAll_responses e⟩

end OperationContext

end AnnotatedApi
