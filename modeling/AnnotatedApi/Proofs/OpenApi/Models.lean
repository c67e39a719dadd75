import AnnotatedApi.Proofs.OpenApi.Answers
import AnnotatedApi.Proofs.Operation.Pointers
import AnnotatedApi.Proofs.Schema.ModelNames

/-! # Models in generated documents

A model is met in three places: the resolver knows its spellings, the components hold a schema of
its name, and operations refer to it by convention. `ModelsReachable` says that the three agree,
also when several models share their names: no reference to a model leads to a schema that is not
there. -/

namespace AnnotatedApi

open Route

/-- The identifier of the model is a path, and the model is named by its last segment. -/
structure Model.IsNamed (model : Model) : Prop where
  path : Source.IsPath model.identifier.toList
  name_eq : model.name = Text.lastSegment model.identifier

namespace Document

/-! ## What is reachable -/

/-- The pointer to the schema of the model that an endpoint handles. -/
def targets (models : List Model) (e : Endpoint) : List String :=
  (e.resource?.bind (modelNamed? models)).toList.map fun model => schemaPointer model.name

/-- Every reference to a model leads to a schema of the document. -/
structure ModelsReachable (models : List Model) (endpoints : List Endpoint)
    (document : Document) : Prop where
  /-- Every spelling of a model stands for the pointer to the schema of its name. -/
  spellings : ∀ model ∈ models, ∀ spelling ∈ ModelNames.spellings model.identifier,
    (namesOf models).resolve? spelling = some (schemaPointer model.name)
  /-- Under the name of a model stands the schema of the first model of the name. -/
  schemas : ∀ model ∈ models, ∃ first,
    models.find? (fun other => other.name = model.name) = some first ∧
      getMember? model.name document.components.schemas =
        some (first.fragment (namesOf models))
  /-- The pointer to the schema of a handled model leads to a schema that is there. -/
  found : ∀ e, ∀ pointer ∈ targets models e,
    ∃ name ∈ memberNames document.components.schemas, pointer = schemaPointer name
  /-- A request body that is not declared refers to the handled model and to nothing else. -/
  bodies : ∀ item ∈ document.paths, ∀ stored ∈ item.2,
    ∃ e, Answers endpoints item.1 stored.1 e ∧
      (e.methodAnnotations.requestBody? = none →
        ∀ body ∈ stored.2.requestBody, body.pointers = targets models e)
  /-- Responses that are not declared refer to the handled model and to nothing else. -/
  responses : ∀ item ∈ document.paths, ∀ stored ∈ item.2,
    ∃ e, Answers endpoints item.1 stored.1 e ∧
      (e.methodAnnotations.responses = [] →
        ∀ entry ∈ stored.2.responses, entry.2.pointers ⊆ targets models e)

/-! ## Schemas of models -/

/-- The schema under a name is that of the first model of the name. -/
theorem getMember?_schemasOf (models : List Model) (name : String) :
    getMember? name (schemasOf models) =
      (models.find? fun model => model.name = name).map fun model =>
        model.fragment (namesOf models) := by
  rw [schemasOf, getMember?_foldl_addMember]
  rfl

/-- Every model has a schema under its name. -/
theorem mem_memberNames_schemasOf {models : List Model} {model : Model} (h : model ∈ models) :
    model.name ∈ memberNames (schemasOf models) := by
  by_contra hnot
  rw [← getMember?_eq_none_iff, getMember?_schemasOf, Option.map_eq_none_iff,
    List.find?_eq_none] at hnot
  exact hnot model h (decide_eq_true rfl)

/-! ## References to models -/

section Named

variable {models : List Model}

/-- The spellings of models that are named by their paths stand for the schemas of their names. -/
theorem resolve?_of_isNamed (h : ∀ model ∈ models, model.IsNamed) {model : Model}
    (hmodel : model ∈ models) {spelling : String}
    (hspelling : spelling ∈ ModelNames.spellings model.identifier) :
    (namesOf models).resolve? spelling = some (schemaPointer model.name) := by
  rw [(h model hmodel).name_eq]
  refine ModelNames.resolve?_of_mem_spellings ?_ (List.mem_map_of_mem hmodel) hspelling
  rw [List.forall_mem_map]
  exact fun other hother => (h other hother).path

/-- The reference to the model that an endpoint handles is the pointer to the schema of its
name. -/
theorem modelPointers_eq_targets (h : ∀ model ∈ models, model.IsNamed) (config : Config)
    (e : Endpoint) : (contextOf config models).modelPointers e = targets models e := by
  rw [OperationContext.modelPointers, OperationContext.model?, targets]
  cases hmodel : e.resource?.bind (modelNamed? (contextOf config models).models) with
  | none =>
      have hnone : e.resource?.bind (modelNamed? models) = none := hmodel
      rw [hnone]
      rfl
  | some model =>
      have hsome : e.resource?.bind (modelNamed? models) = some model := hmodel
      obtain ⟨resource, -, hfind⟩ := Option.bind_eq_some_iff.mp hsome
      -- the identifier itself is one of the spellings
      have hresolve : (contextOf config models).names.resolve? model.identifier =
          some (schemaPointer model.name) :=
        resolve?_of_isNamed h (List.mem_of_find?_eq_some hfind) (by simp [ModelNames.spellings])
      rw [hsome]
      simp only [Option.toList_some, List.flatMap_cons, List.flatMap_nil, List.append_nil,
        List.map_cons, List.map_nil, OperationContext.modelFragment, ModelNames.fragment?,
        hresolve]
      rfl

/-- In a generated document every reference to a model leads to a schema, whatever the models are
that share its name. -/
theorem modelsReachable_generate (h : ∀ model ∈ models, model.IsNamed) (config : Config)
    (endpoints : List Endpoint) :
    ModelsReachable models (shown endpoints) (generate config endpoints models) := by
  have hschemas : (generate config endpoints models).components.schemas = schemasOf models := by
    rw [generate_eq]
    rfl
  constructor
  · intro model hmodel spelling hspelling
    exact resolve?_of_isNamed h hmodel hspelling
  · intro model hmodel
    -- of several models with the name the first one is stored
    obtain ⟨first, hfirst⟩ :
        ∃ first, models.find? (fun other => other.name = model.name) = some first := by
      rw [← Option.isSome_iff_exists, List.find?_isSome]
      exact ⟨model, hmodel, decide_eq_true rfl⟩
    refine ⟨first, hfirst, ?_⟩
    rw [hschemas, getMember?_schemasOf, hfirst, Option.map_some]
  · intro e pointer hpointer
    obtain ⟨model, hmodel, rfl⟩ := List.mem_map.mp hpointer
    obtain ⟨resource, -, hfind⟩ := Option.bind_eq_some_iff.mp (Option.mem_toList.mp hmodel)
    refine ⟨model.name, ?_, rfl⟩
    rw [hschemas]
    exact mem_memberNames_schemasOf (List.mem_of_find?_eq_some hfind)
  · intro item hitem stored hstored
    obtain ⟨e, he, hoperation⟩ := exists_answers hitem hstored
    refine ⟨e, he, ?_⟩
    intro hdeclared body hbody
    rw [hoperation] at hbody
    rw [← modelPointers_eq_targets h config]
    exact OperationContext.pointers_requestBody? _ hdeclared hbody
  · intro item hitem stored hstored
    obtain ⟨e, he, hoperation⟩ := exists_answers hitem hstored
    refine ⟨e, he, ?_⟩
    intro hdeclared entry hentry
    rw [hoperation] at hentry
    rw [← modelPointers_eq_targets h config]
    exact OperationContext.pointers_responses _ hdeclared entry hentry

end Named

/-- A model of which only its path is known. -/
def bareModel (identifier : String) : Model where
  identifier
  name := Text.lastSegment identifier
  table := ""
  fields := []
  casts := []
  fillable := []
  hidden := []
  annotations := []

/-- Two models that share their short name. -/
def taskModels : List Model :=
  [bareModel "crate::models::Task", bareModel "crate::archive::Task"]

/-- The handler that creates a task declares nothing. -/
def createTask : Endpoint where
  method := .post
  uri := "/tasks"
  parameters := []
  handler := some ⟨"TaskController", "store"⟩

/-- Both models are named by their paths, and creating a task refers to them by one pointer. -/
theorem modelsReachable_taskModels :
    (∀ model ∈ taskModels, model.IsNamed) ∧
      targets taskModels createTask = ["#/components/schemas/Task"] ∧
      ModelsReachable taskModels (shown [createTask]) (generate {} [createTask] taskModels) := by
  have hnamed : ∀ model ∈ taskModels, model.IsNamed := by
    rw [taskModels, List.forall_mem_cons, List.forall_mem_singleton]
    constructor
    · refine ⟨?_, rfl⟩
      exact .cons (@Source.IsName.plain 'c' "rate".toList rfl (List.all_eq_true.mp rfl)) <|
        .cons (@Source.IsName.plain 'm' "odels".toList rfl (List.all_eq_true.mp rfl)) <|
          .name (@Source.IsName.plain 'T' "ask".toList rfl (List.all_eq_true.mp rfl))
    · refine ⟨?_, rfl⟩
      exact .cons (@Source.IsName.plain 'c' "rate".toList rfl (List.all_eq_true.mp rfl)) <|
        .cons (@Source.IsName.plain 'a' "rchive".toList rfl (List.all_eq_true.mp rfl)) <|
          .name (@Source.IsName.plain 'T' "ask".toList rfl (List.all_eq_true.mp rfl))
  exact ⟨hnamed, by decide, modelsReachable_generate hnamed {} [createTask]⟩

end Document

end AnnotatedApi
