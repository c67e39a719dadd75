import AnnotatedApi.Operation.Construction
import AnnotatedApi.Proofs.Operation.Pointers
import AnnotatedApi.Proofs.Schema.Lawful
import Mathlib.Data.Option.Basic

/-! # Operations are lawful

An operation of an endpoint with lawful annotations is lawful. What is declared comes out of lawful
declarations; the shapes by convention have samples that are not null, and no name twice. -/

namespace AnnotatedApi

variable {names : ModelNames}

/-! ## Conventional shapes -/

namespace Fragment

/-- An object with lawful properties is lawful. -/
theorem lawful_object {properties : List (String × Fragment)}
    (hnodup : (memberNames properties).Nodup)
    (h : ∀ entry ∈ properties, entry.2.Lawful (· ≠ .null)) :
    (object properties).Lawful (· ≠ .null) :=
  .inline (Schema.lawfulKeywords_empty.of_eq rfl rfl rfl rfl) forall_mem_none hnodup h

/-- A sample that is not null is lawful. -/
theorem lawful_sample (type : String) {value : Json} (hcollected : value.IsCollected)
    (hnull : value ≠ .null) : (sample type value).Lawful (· ≠ .null) :=
  .inline ⟨forall_mem_none, forall_mem_none, forall_mem_some ⟨hcollected, hnull⟩, forall_mem_none⟩
    forall_mem_none List.nodup_nil (List.forall_mem_nil _)

/-- A schema in place without JSON values, elements and properties is lawful. -/
theorem lawful_flat {schema : Schema} (henum : schema.enum = none)
    (hdefault : schema.default = none) (hexample : schema.exampleValue = none)
    (hexamples : schema.examples = none) (hitems : schema.items = none)
    (hproperties : schema.properties = []) : (inline schema).Lawful (· ≠ .null) :=
  lawful_inline_iff.mpr
    (Schema.lawful_of_flat henum hdefault hexample hexamples hitems hproperties)

/-- An object of which nothing is known is lawful. -/
theorem lawful_anyObject : anyObject.Lawful (· ≠ .null) :=
  lawful_flat rfl rfl rfl rfl rfl rfl

/-- A sample number is lawful. -/
theorem lawful_sample_int (value : Int) : (sample "integer" (.int value)).Lawful (· ≠ .null) :=
  lawful_sample _ rfl Json.noConfusion

/-- A sample text is lawful. -/
theorem lawful_sample_text (value : String) :
    (sample "string" (.text value)).Lawful (· ≠ .null) :=
  lawful_sample _ rfl Json.noConfusion

/-- A point in time is lawful. -/
theorem lawful_dateTime : dateTime.Lawful (· ≠ .null) :=
  lawful_flat rfl rfl rfl rfl rfl rfl

/-- An object with a message is lawful. -/
theorem lawful_message (text : String) : (message text).Lawful (· ≠ .null) := by
  refine lawful_object (by simp) ?_
  rw [List.forall_mem_singleton]
  exact lawful_sample_text text

/-- A page of lawful items is lawful. -/
theorem lawful_page {items : Fragment} (h : items.Lawful (· ≠ .null)) :
    (page items).Lawful (· ≠ .null) := by
  have huri : uri.Lawful (· ≠ .null) := lawful_flat rfl rfl rfl rfl rfl rfl
  have hnullable : nullableUri.Lawful (· ≠ .null) := lawful_flat rfl rfl rfl rfl rfl rfl
  have hlinks : (object [("first", uri), ("last", uri), ("prev", nullableUri),
      ("next", nullableUri)]).Lawful (· ≠ .null) := by
    refine lawful_object (by simp) ?_
    simp only [List.forall_mem_cons]
    exact ⟨huri, huri, hnullable, hnullable, List.forall_mem_nil _⟩
  refine lawful_object (by simp) ?_
  simp only [List.forall_mem_cons]
  refine ⟨lawful_inline_iff.mpr (Schema.lawful_arrayOf h), hlinks,
    lawful_object (by simp) ?_, List.forall_mem_nil _⟩
  simp only [List.forall_mem_cons]
  exact ⟨lawful_sample_int 1, lawful_sample_int 1, lawful_sample_int 5, huri,
    lawful_sample_int 15, lawful_sample_int 15, lawful_sample_int 75, List.forall_mem_nil _⟩

/-- What stands for a resource is lawful. -/
theorem lawful_genericResource (resource : String) :
    (genericResource resource).Lawful (· ≠ .null) := by
  refine lawful_object (by simp) ?_
  simp only [List.forall_mem_cons]
  exact ⟨lawful_sample_int 1, lawful_sample_text _, lawful_sample_text _, lawful_dateTime,
    lawful_dateTime, List.forall_mem_nil _⟩

/-- What stands for a created record is lawful. -/
theorem lawful_createdRecord : createdRecord.Lawful (· ≠ .null) := by
  refine lawful_object (by simp) ?_
  simp only [List.forall_mem_cons]
  exact ⟨lawful_sample_int 1, lawful_dateTime, lawful_dateTime, List.forall_mem_nil _⟩

/-- What stands for an updated record is lawful. -/
theorem lawful_updatedRecord : updatedRecord.Lawful (· ≠ .null) := by
  refine lawful_object (by simp) ?_
  simp only [List.forall_mem_cons]
  exact ⟨lawful_sample_int 1, lawful_dateTime, List.forall_mem_nil _⟩

/-- The input for a resource is lawful. -/
theorem lawful_genericInput (label : String) : (genericInput label).Lawful (· ≠ .null) := by
  refine lawful_object (by simp) ?_
  simp only [List.forall_mem_cons]
  exact ⟨lawful_flat rfl rfl rfl rfl rfl rfl, lawful_flat rfl rfl rfl rfl rfl rfl,
    List.forall_mem_nil _⟩

end Fragment

/-- JSON content of a lawful shape is lawful. -/
theorem lawful_jsonContent {schema : Fragment} (h : schema.Lawful (· ≠ .null)) :
    LawfulMap (MediaType.Lawful (· ≠ .null)) (jsonContent schema) where
  nodup := List.pairwise_singleton _ _
  each := List.forall_mem_singleton.mpr ⟨forall_mem_some h, forall_mem_none, forall_mem_none⟩

namespace Response

/-- A response of a lawful shape is lawful. -/
theorem lawful_json (description : String) {schema : Fragment} (h : schema.Lawful (· ≠ .null)) :
    (Response.json description schema).Lawful (· ≠ .null) :=
  ⟨.empty, lawful_jsonContent h⟩

/-- The response when there is no such resource is lawful. -/
theorem lawful_notFound : notFound.Lawful (· ≠ .null) :=
  lawful_json _ (Fragment.lawful_message _)

/-- The response when the input is not valid is lawful. -/
theorem lawful_validationError : validationError.Lawful (· ≠ .null) := by
  refine lawful_json _ (Fragment.lawful_object (by simp) ?_)
  simp only [List.forall_mem_cons]
  exact ⟨Fragment.lawful_sample_text _, Fragment.lawful_sample _ rfl Json.noConfusion,
    List.forall_mem_nil _⟩

/-- The response when anything else goes wrong is lawful. -/
theorem lawful_unexpected : unexpected.Lawful (· ≠ .null) :=
  lawful_json _ (Fragment.lawful_message _)

end Response

/-- The parameters that choose a page are lawful. -/
theorem Parameter.lawful_pagination : ∀ p ∈ pagination, p.Lawful (· ≠ .null) := by
  have hquery : ∀ (name description : String) {schema : Schema},
      schema.LawfulKeywords (· ≠ .null) → schema.items = none → schema.properties = [] →
        (query name description schema).Lawful (· ≠ .null) := by
    intro name description schema hkeywords hitems hproperties
    refine ⟨forall_mem_some (Fragment.lawful_inline_iff.mpr ⟨hkeywords, ?_, ?_⟩),
      forall_mem_none, forall_mem_none⟩
    · exact hitems ▸ forall_mem_none
    · exact hproperties ▸ .empty
  have hint : ∀ n : Int, LawfulValue (· ≠ .null) (some (.int n)) := fun n =>
    forall_mem_some ⟨rfl, Json.noConfusion⟩
  have henum : LawfulValues (some [.text "asc", .text "desc"]) := by
    refine forall_mem_some ?_
    simp only [List.forall_mem_cons]
    exact ⟨rfl, rfl, List.forall_mem_nil _⟩
  rw [pagination]
  simp only [List.forall_mem_cons]
  refine ⟨hquery _ _ ⟨forall_mem_none, hint 1, forall_mem_none, forall_mem_none⟩ rfl rfl,
    hquery _ _ ⟨forall_mem_none, hint 15, forall_mem_none, forall_mem_none⟩ rfl rfl,
    hquery _ _ (Schema.lawful_typed _).keywords rfl rfl,
    hquery _ _ ⟨henum, forall_mem_some ⟨rfl, Json.noConfusion⟩, forall_mem_none,
      forall_mem_none⟩ rfl rfl, List.forall_mem_nil _⟩

/-! ## Requirements -/

/-- Requirements that name no scheme twice are left so when schemes are taken out of them. -/
theorem lawful_pruneRequirements {schemes : List (String × SecurityScheme)}
    {requirements : List SecurityRequirement}
    (h : ∀ requirement ∈ requirements, requirement.Lawful) :
    ∀ requirement ∈ pruneRequirements schemes requirements, requirement.Lawful := by
  intro kept hkept
  obtain ⟨requirement, hmem, rfl⟩ := List.mem_map.mp (List.mem_filter.mp hkept).1
  have hsublist : (requirement.prune schemes).Sublist requirement := List.filter_sublist
  exact (h requirement hmem).sublist (hsublist.map Prod.fst)

/-! ## What is declared -/

/-- An endpoint whose annotations are lawful. -/
structure Route.Endpoint.Lawful (e : Route.Endpoint) : Prop where
  methodAnnotations : e.methodAnnotations.Lawful
  typeAnnotations : e.typeAnnotations.Lawful

namespace OperationContext

variable (context : OperationContext)

/-- A lawful declared parameter gives a lawful parameter. -/
theorem lawful_declaredParameter {decl : ParameterDecl} (h : decl.Lawful) :
    (context.declaredParameter decl).Lawful (· ≠ .null) where
  schema := Option.forall_mem_map.mpr fun schema hschema => (h.schema schema hschema).fragment
  exampleValue := h.exampleValue
  examples := h.examples

/-- The content of a body is lawful, wherever it comes from. -/
theorem lawful_content {decls : List MediaTypeDecl} {reference : Option String}
    {properties : List PropertyDecl} (hdecls : ∀ decl ∈ decls, decl.Lawful)
    (hproperties : ∀ decl ∈ properties, decl.Lawful) :
    LawfulMap (MediaType.Lawful (· ≠ .null)) (context.content decls reference properties) := by
  rw [content]
  -- declared media types, else what is referred to, else declared properties
  split
  · refine .collectMembers ?_
    intro entry hentry
    obtain ⟨decl, hdecl, rfl⟩ := List.mem_map.mp hentry
    have h := hdecls decl hdecl
    exact ⟨Option.forall_mem_map.mpr fun schema hschema => (h.schema schema hschema).fragment,
      h.exampleValue, h.examples⟩
  · split
    · next fragment hfragment =>
      exact lawful_jsonContent (ModelNames.lawful_of_optionalFragment? hfragment)
    · split
      · exact .empty
      · exact lawful_jsonContent (lawful_objectOfProperties hproperties)

/-- A lawful declared response gives a lawful response. -/
theorem lawful_declaredResponse {decl : ResponseDecl} (h : decl.Lawful) :
    (context.declaredResponse decl).Lawful (· ≠ .null) where
  headers := .mapMembers h.headers fun _ _ =>
    forall_mem_some (Fragment.lawful_flat rfl rfl rfl rfl rfl rfl)
  content := context.lawful_content h.content h.properties

/-! ## What is there by convention -/

/-- The reference to a model is lawful. -/
theorem lawful_modelFragment (model : Model) :
    (context.modelFragment model).Lawful (· ≠ .null) := by
  rw [modelFragment]
  cases hfragment : context.names.fragment? model.identifier with
  | none => exact Fragment.lawful_anyObject
  | some fragment => exact ModelNames.lawful_of_fragment? hfragment

/-- The parameters by convention are lawful. -/
theorem lawful_discoveredParameters (e : Route.Endpoint) :
    ∀ p ∈ discoveredParameters e, p.Lawful (· ≠ .null) := by
  have hpath : ∀ pattern : Option String,
      (Fragment.inline (pathSchema pattern)).Lawful (· ≠ .null) := by
    intro pattern
    cases pattern with
    | none => exact Fragment.lawful_flat rfl rfl rfl rfl rfl rfl
    | some p =>
        rw [pathSchema]
        split
        · exact Fragment.lawful_flat rfl rfl rfl rfl rfl rfl
        · split <;> exact Fragment.lawful_flat rfl rfl rfl rfl rfl rfl
  rw [discoveredParameters, List.forall_mem_append]
  constructor
  · intro p hp
    obtain ⟨name, -, rfl⟩ := List.mem_map.mp hp
    exact ⟨forall_mem_some (hpath _), forall_mem_none, forall_mem_none⟩
  · split
    · exact Parameter.lawful_pagination
    · exact List.forall_mem_nil _

/-- What a response on a resource holds is lawful, also when another shape stands in for it. -/
theorem lawful_getD_resourceFragment? (e : Route.Endpoint) {fallback : Fragment}
    (h : fallback.Lawful (· ≠ .null)) :
    ((context.resourceFragment? e).getD fallback).Lawful (· ≠ .null) := by
  rw [resourceFragment?]
  cases e.resource? with
  | none => exact h
  | some resource =>
      rw [Option.map_some, Option.getD_some]
      cases context.model? e with
      | none => exact Fragment.lawful_genericResource resource
      | some model => exact context.lawful_modelFragment model

/-- The response of a resource is lawful, also when another shape stands in for what it holds. -/
theorem lawful_resourceResponse (e : Route.Endpoint) (description : String) {fallback : Fragment}
    (h : fallback.Lawful (· ≠ .null)) :
    (Response.json description ((context.resourceFragment? e).getD fallback)).Lawful (· ≠ .null) :=
  Response.lawful_json description (context.lawful_getD_resourceFragment? e h)

/-- Lawful responses are lawful with the one for all other cases, if none is that already. -/
theorem lawful_withUnexpected {responses : List (String × Response)}
    (hnodup : (memberNames (responses ++ [("default", .unexpected)])).Nodup)
    (h : ∀ entry ∈ responses, entry.2.Lawful (· ≠ .null)) :
    LawfulMap (Response.Lawful (· ≠ .null)) (responses ++ [("default", .unexpected)]) where
  nodup := hnodup
  each := List.forall_mem_append.mpr
    ⟨h, List.forall_mem_singleton.mpr Response.lawful_unexpected⟩

/-- The responses to an update are lawful. -/
theorem lawful_updateResponses (e : Route.Endpoint) :
    LawfulMap (Response.Lawful (· ≠ .null))
      (methodResponses.updateResponses (context.resourceFragment? e) ++
        [("default", .unexpected)]) := by
  refine lawful_withUnexpected (by simp [methodResponses.updateResponses]) ?_
  rw [methodResponses.updateResponses]
  simp only [List.forall_mem_cons]
  exact ⟨context.lawful_resourceResponse e _ Fragment.lawful_updatedRecord,
    Response.lawful_notFound, Response.lawful_validationError, List.forall_mem_nil _⟩

/-- The responses by convention are lawful, and none of them is the one for all other cases. -/
theorem lawful_methodResponses (e : Route.Endpoint) :
    LawfulMap (Response.Lawful (· ≠ .null))
      (context.methodResponses e ++ [("default", .unexpected)]) := by
  rw [methodResponses]
  cases e.method with
  | get =>
      dsimp only
      split
      · -- a list
        refine lawful_withUnexpected (by simp) (List.forall_mem_singleton.mpr ?_)
        exact Response.lawful_json _ (Fragment.lawful_page
          (context.lawful_getD_resourceFragment? e Fragment.lawful_anyObject))
      · split
        · -- one resource
          refine lawful_withUnexpected (by simp) ?_
          simp only [List.forall_mem_cons]
          exact ⟨context.lawful_resourceResponse e _ Fragment.lawful_anyObject,
            Response.lawful_notFound, List.forall_mem_nil _⟩
        · -- anything else
          refine lawful_withUnexpected (by simp) (List.forall_mem_singleton.mpr ?_)
          exact Response.lawful_json _ Fragment.lawful_anyObject
  | post =>
      refine lawful_withUnexpected (by simp) ?_
      simp only [List.forall_mem_cons]
      exact ⟨context.lawful_resourceResponse e _ Fragment.lawful_createdRecord,
        Response.lawful_validationError, List.forall_mem_nil _⟩
  | put => exact context.lawful_updateResponses e
  | patch => exact context.lawful_updateResponses e
  | delete =>
      refine lawful_withUnexpected (by simp) ?_
      simp only [List.forall_mem_cons]
      exact ⟨⟨.empty, .empty⟩, Response.lawful_notFound, List.forall_mem_nil _⟩
  | head => exact lawful_withUnexpected (by simp) (List.forall_mem_nil _)
  | options => exact lawful_withUnexpected (by simp) (List.forall_mem_nil _)

/-! ## Whole operations -/

/-- What holds in each of several lists holds in the first one that is not empty. -/
theorem forall_mem_firstNonEmpty {P : α → Prop} {lists : List (List α)}
    (h : ∀ list ∈ lists, ∀ a ∈ list, P a) : ∀ a ∈ firstNonEmpty lists, P a := by
  induction lists with
  | nil => exact List.forall_mem_nil _
  | cons list rest ih =>
      rw [List.forall_mem_cons] at h
      cases list with
      | nil => exact ih h.2
      | cons a list => exact h.1

section Whole

variable {e : Route.Endpoint} (h : e.Lawful)
include h

/-- The parameters of an operation are lawful. -/
theorem lawful_parameters : ∀ p ∈ context.parameters e, p.Lawful (· ≠ .null) := by
  have hdeclared : ∀ p ∈ e.methodAnnotations.parameters.map context.declaredParameter,
      p.Lawful (· ≠ .null) := by
    intro p hp
    obtain ⟨decl, hdecl, rfl⟩ := List.mem_map.mp hp
    exact context.lawful_declaredParameter (h.methodAnnotations.parameters decl hdecl)
  rw [parameters]
  -- conventional parameters are only added to the declared ones
  refine List.foldlRecOn
    (motive := fun done : List Parameter => ∀ p ∈ done, p.Lawful (· ≠ .null)) _ _ hdeclared ?_
  intro done hdone p hp
  exact forall_mem_addParameter (lawful_discoveredParameters e p hp) hdone

/-- The request body of an operation is lawful. -/
theorem lawful_requestBody? : ∀ body ∈ context.requestBody? e, body.Lawful (· ≠ .null) := by
  rw [requestBody?]
  split
  · next decl hdecl =>
    have hlawful := h.methodAnnotations.requestBody? decl hdecl
    exact forall_mem_some (context.lawful_content hlawful.content hlawful.properties)
  · split
    · exact forall_mem_none
    · refine Option.forall_mem_map.mpr fun resource _ => lawful_jsonContent ?_
      cases context.model? e with
      | none => exact Fragment.lawful_genericInput _
      | some model => exact context.lawful_modelFragment model

/-- The responses of an operation are lawful. -/
theorem lawful_responses : LawfulMap (Response.Lawful (· ≠ .null)) (context.responses e) := by
  rw [responses]
  split
  · exact context.lawful_methodResponses e
  · refine .collectMembers ?_
    intro entry hentry
    obtain ⟨decl, hdecl, rfl⟩ := List.mem_map.mp hentry
    exact context.lawful_declaredResponse (h.methodAnnotations.responses decl hdecl)

/-- The requirements that apply to an endpoint name no scheme twice. -/
theorem lawful_applicableSecurity :
    ∀ requirement ∈ context.applicableSecurity e, requirement.Lawful := by
  have hdeclared : ∀ requirement ∈ e.declared.security.getD [], requirement.Lawful := by
    rw [Route.Endpoint.declared]
    cases hdecl : e.methodAnnotations.operation? with
    | none => exact List.forall_mem_nil _
    | some decl => exact h.methodAnnotations.operation? decl hdecl
  have hmiddleware : ∀ requirement ∈ context.middlewareSecurity e, requirement.Lawful := by
    intro requirement hrequirement
    obtain ⟨name, -, rfl⟩ := List.mem_map.mp hrequirement
    exact List.pairwise_singleton _ _
  rw [applicableSecurity]
  -- the first of these sources that names anything counts
  refine forall_mem_firstNonEmpty ?_
  simp only [List.forall_mem_cons]
  exact ⟨hdeclared, h.methodAnnotations.security, h.typeAnnotations.security, hmiddleware,
    List.forall_mem_nil _⟩

/-- The requirements of an operation name no scheme twice. -/
theorem lawful_security? : ∀ requirements ∈ context.security? e,
    ∀ requirement ∈ requirements, requirement.Lawful := by
  rw [security?]
  split
  · exact forall_mem_none
  · exact forall_mem_some (lawful_pruneRequirements (context.lawful_applicableSecurity h))

/-- The operation of an endpoint is lawful. -/
theorem lawful_shownOperation : (context.shownOperation e).Lawful (· ≠ .null) where
  parameters := context.lawful_parameters h
  requestBody := context.lawful_requestBody? h
  responses := context.lawful_responses h
  security := context.lawful_security? h

end Whole

end OperationContext

end AnnotatedApi
