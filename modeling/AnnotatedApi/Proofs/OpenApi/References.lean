import AnnotatedApi.Proofs.OpenApi.Paths
import AnnotatedApi.Proofs.Operation.Pointers

/-! # The pointers of generated documents

Whatever the configuration, the annotations and the models refer to, a generated document holds
nothing but pointers into documents that are resolved to themselves. Each part of a document holds
pointers that the resolver gives only, and what it gives is resolved to itself. -/

namespace AnnotatedApi

/-! ## Collecting pointers -/

/-- The pointers of what operations share. -/
def Components.pointers (c : Components) : List String :=
  pointersOfFragments c.schemas ++ c.parameters.flatMap (fun entry => entry.2.pointers) ++
    c.responses.flatMap fun entry => entry.2.pointers

namespace Document

open Route

/-- The pointers of a document: those of its operations and those of what they share. -/
def pointers (document : Document) : List String :=
  (document.paths.flatMap fun entry => entry.2.flatMap fun entry => entry.2.pointers) ++
    document.components.pointers

variable {names : ModelNames}

/-! ## What the configuration declares -/

/-- A resolved parameter holds given pointers. -/
theorem givesAll_resolveParameter (p : Parameter) :
    names.GivesAll (resolveParameter names p).pointers :=
  givesAll_toList_iff.mpr (resolvedOption_map ModelNames.resolved_resolveFragment _)

/-- A resolved response holds given pointers. -/
theorem givesAll_resolveResponse (r : Response) :
    names.GivesAll (resolveResponse names r).pointers := by
  simp only [Response.givesAll_iff, resolveResponse, resolveContent]
  constructor
  · refine forall_mem_mapMembers ?_
    intro entry _
    exact givesAll_toList_iff.mpr (resolvedOption_map ModelNames.resolved_resolveFragment _)
  · refine forall_mem_mapMembers ?_
    intro entry _
    exact givesAll_toList_iff.mpr (resolvedOption_map ModelNames.resolved_resolveFragment _)

/-! ## The parts of a document -/

/-- The schemas of models are resolved. -/
theorem resolved_schemasOf (models : List Model) :
    ResolvedFragments (namesOf models) (schemasOf models) := by
  rw [schemasOf]
  refine List.foldlRecOn (motive := ResolvedFragments (namesOf models)) _ _
    resolvedFragments_nil ?_
  intro schemas hschemas model _
  exact forall_mem_addMember model.resolved_fragment hschemas

/-- What operations share holds given pointers. -/
theorem givesAll_componentsOf (config : Config) (models : List Model) :
    (namesOf models).GivesAll (componentsOf config models).pointers := by
  rw [Components.pointers, ModelNames.givesAll_append_iff, ModelNames.givesAll_append_iff,
    givesAll_pointersOfFragments_iff, ModelNames.givesAll_flatMap_iff,
    ModelNames.givesAll_flatMap_iff]
  refine ⟨⟨resolved_schemasOf models, ?_⟩, ?_⟩
  · refine forall_mem_collectMembers (forall_mem_mapMembers ?_)
    intro entry _
    exact givesAll_resolveParameter entry.2
  · refine forall_mem_collectMembers (forall_mem_mapMembers ?_)
    intro entry _
    exact givesAll_resolveResponse entry.2

/-- The operations of endpoints hold given pointers. -/
theorem givesAll_pathsOf (context : OperationContext) (endpoints : List Endpoint) :
    context.names.GivesAll
      ((pathsOf context endpoints).flatMap fun entry =>
        entry.2.flatMap fun entry => entry.2.pointers) := by
  rw [ModelNames.givesAll_flatMap_iff]
  intro entry hentry
  rw [ModelNames.givesAll_flatMap_iff]
  intro stored hstored
  obtain ⟨_, e, -, -, hoperation⟩ := exists_answering_of_mem_pathsOf context hentry hstored
  rw [hoperation]
  exact context.givesAll_shownOperation e

/-- Every pointer of a generated document points into the document and is resolved to itself, so no
reference is left as it was written. -/
theorem resolve?_eq_self_of_generate (config : Config) (endpoints : List Endpoint)
    (models : List Model) :
    ∀ pointer ∈ (generate config endpoints models).pointers,
      Text.startsWith pointer "#/" = true ∧
        (namesOf models).resolve? pointer = some pointer := by
  -- every part holds what the resolver gives, and what it gives is resolved to itself
  have hgiven : (namesOf models).GivesAll (generate config endpoints models).pointers := by
    rw [generate_eq, pointers, ModelNames.givesAll_append_iff]
    exact ⟨givesAll_pathsOf (contextOf config models) (shown endpoints),
      givesAll_componentsOf config models⟩
  intro pointer hpointer
  obtain ⟨reference, hreference⟩ := hgiven pointer hpointer
  have hends := ModelNames.endsAgree_ofIdentifiers (models.map Model.identifier)
  refine ⟨?_, hends.resolve?_of_resolve? hreference⟩
  exact Text.startsWith_iff.mpr (hends.isPointer_of_resolve? hreference).front

/-- The model of tasks. -/
def taskModel : Model where
  identifier := "crate::models::Task"
  name := "Task"
  table := "tasks"
  fields := []
  casts := []
  fillable := []
  hidden := []
  annotations := []

/-- The handler that lists tasks refers to their model deep in a response, with blanks around. -/
def listTasks : Endpoint where
  method := .get
  uri := "/tasks"
  parameters := []
  methodAnnotations :=
    [.response {
      status := "200"
      properties := [.mk (some "tasks") { type := some "array" } none
        (some (.mk { reference := some " models::Task " } none [])) []] }]

/-- The reference to tasks has become a pointer that is resolved to itself. -/
theorem resolve?_eq_self_of_listTasks :
    "#/components/schemas/Task" ∈ (generate {} [listTasks] [taskModel]).pointers ∧
      Text.startsWith "#/components/schemas/Task" "#/" = true ∧
      (namesOf [taskModel]).resolve? "#/components/schemas/Task" =
        some "#/components/schemas/Task" := by
  have hmem : "#/components/schemas/Task" ∈ (generate {} [listTasks] [taskModel]).pointers := by
    decide
  exact ⟨hmem, resolve?_eq_self_of_generate {} [listTasks] [taskModel] _ hmem⟩

end Document

end AnnotatedApi
