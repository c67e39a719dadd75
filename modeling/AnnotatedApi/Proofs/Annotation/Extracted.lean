import AnnotatedApi.Model.Discovery
import AnnotatedApi.Proofs.Operation.Lawful
import AnnotatedApi.Proofs.Route.Memory

/-! # Annotations of what is discovered

All annotations of the endpoints and models that are discovered are spelled by attributes of the
sources. Those that a model's fields get from the declared properties of the model are no exception,
as attributes of the model spell them. -/

namespace AnnotatedApi

open Source

/-! ## Extracted annotations -/

/-- All annotations are spelled by attributes. -/
def Annotations.IsExtracted (list : Annotations) : Prop :=
  ∀ annotation ∈ list, annotation.IsExtracted

namespace Annotations.IsExtracted

variable {list : Annotations}

/-- Extracted annotations are lawful. -/
theorem lawful (h : IsExtracted list) : Lawful list :=
  fun annotation hannotation => (h annotation hannotation).lawful

/-- The annotations of attributes that may not be there. -/
theorem getD {owner : Option β} (attrs : β → List Attribute) :
    IsExtracted ((owner.map fun o => ofAttributes (attrs o)).getD []) := by
  cases owner with
  | none => exact List.forall_mem_nil _
  | some o => exact isExtracted_ofAttributes (attrs o)

/-- The declared properties are those of annotations. -/
theorem property (h : IsExtracted list) :
    ∀ decl ∈ properties list, Annotation.IsExtracted (.property decl) := by
  intro decl hdecl
  obtain ⟨found, hmem, hfound⟩ := List.mem_filterMap.mp hdecl
  split at hfound
  · rw [← Option.some.inj hfound]
    exact h _ hmem
  · exact absurd hfound.symm (Option.some_ne_none _)

end Annotations.IsExtracted

/-! ## Endpoints -/

namespace Route

/-- All annotations of the endpoint are spelled by attributes. -/
structure Endpoint.IsExtracted (e : Endpoint) : Prop where
  methodAnnotations : Annotations.IsExtracted e.methodAnnotations
  typeAnnotations : Annotations.IsExtracted e.typeAnnotations

/-- An endpoint with extracted annotations is lawful. -/
theorem Endpoint.IsExtracted.lawful {e : Endpoint} (h : e.IsExtracted) : e.Lawful :=
  ⟨h.methodAnnotations.lawful, h.typeAnnotations.lawful⟩

/-- All annotations of discovered endpoints are spelled by attributes. -/
theorem isExtracted_of_mem_discover {config : Config} {files : List ModuleFile}
    {routes : List HostRoute} :
    ∀ e ∈ discover config (.ofFiles files) routes, e.IsExtracted := by
  rw [discover_eq_endpoints (Index.distinct_ofFiles files)]
  intro e he
  obtain ⟨route, -, he⟩ := List.mem_flatMap.mp he
  rw [endpointsOf] at he
  split at he
  · split at he
    · obtain ⟨method, -, rfl⟩ := List.mem_map.mp he
      exact ⟨.getD _, .getD _⟩
    · exact absurd he List.not_mem_nil
  · exact absurd he List.not_mem_nil

end Route

/-! ## Models -/

/-- All annotations of the field are spelled by attributes. -/
def ModelField.IsExtracted (field : ModelField) : Prop :=
  Annotations.IsExtracted field.annotations

/-- All annotations of the fields are spelled by attributes. -/
def ExtractedFields (fields : List (String × ModelField)) : Prop :=
  ∀ entry ∈ fields, entry.2.IsExtracted

/-- All annotations of the model and of its fields are spelled by attributes. -/
structure Model.IsExtracted (model : Model) : Prop where
  annotations : Annotations.IsExtracted model.annotations
  fields : ExtractedFields model.fields

/-- A model with extracted annotations is lawful. -/
theorem Model.IsExtracted.lawful {model : Model} (h : model.IsExtracted) : model.Lawful :=
  ⟨h.annotations.lawful, fun entry hentry => (h.fields entry hentry).lawful⟩

/-- The annotations of a struct's fields are spelled by attributes. -/
theorem isExtracted_of_mem_namedFieldsOf {entry : TypeEntry} :
    ∀ f ∈ namedFieldsOf entry, f.modelField.IsExtracted := by
  rw [namedFieldsOf]
  split
  · intro f hf
    obtain ⟨field, -, hfield⟩ := List.mem_filterMap.mp hf
    rw [NamedField.ofField?] at hfield
    split at hfield
    · exact absurd hfield.symm (Option.some_ne_none f)
    · dsimp only at hfield
      split at hfield
      · exact absurd hfield.symm (Option.some_ne_none f)
      · rw [← Option.some.inj hfield]
        exact Annotations.isExtracted_ofAttributes field.attrs
  · exact List.forall_mem_nil _

/-- A declared property that an attribute spells is one more extracted annotation. -/
theorem ExtractedFields.addProperty {fields : List (String × ModelField)}
    (hfields : ExtractedFields fields) {decl : PropertyDecl}
    (hdecl : Annotation.IsExtracted (.property decl)) :
    ExtractedFields (addProperty fields decl) := by
  have hfield : ∀ name nullable,
      ((getMember? name fields).getD { nullable }).IsExtracted := by
    intro name nullable
    cases hfound : getMember? name fields with
    | none => exact List.forall_mem_nil _
    | some field => exact hfields _ (mem_of_getMember? hfound)
  rw [AnnotatedApi.addProperty]
  split
  · exact hfields
  · refine forall_mem_putMember ?_ hfields
    dsimp only
    split
    · exact hfield _ _
    · exact List.forall_mem_append.mpr ⟨hfield _ _, List.forall_mem_singleton.mpr hdecl⟩

/-- The declared properties of extracted annotations. -/
theorem ExtractedFields.addProperties {fields : List (String × ModelField)}
    (hfields : ExtractedFields fields) {list : Annotations} (hlist : Annotations.IsExtracted list) :
    ExtractedFields (list.properties.foldl AnnotatedApi.addProperty fields) :=
  List.foldlRecOn (motive := ExtractedFields) _ _ hfields fun _ hfields decl hdecl =>
    hfields.addProperty (hlist.property decl hdecl)

/-- Fields that are only named have no annotations. -/
theorem ExtractedFields.addNames {fields : List (String × ModelField)}
    (hfields : ExtractedFields fields) (names : List String) :
    ExtractedFields (names.foldl (fun fields name => addMember name {} fields) fields) :=
  List.foldlRecOn (motive := ExtractedFields) _ _ hfields fun _ hfields _ _ =>
    forall_mem_addMember (List.forall_mem_nil _) hfields

/-- All annotations of discovered models are spelled by attributes. -/
theorem isExtracted_of_mem_modelsOf {config : Config} {index : Index} :
    ∀ model ∈ modelsOf config index, model.IsExtracted := by
  intro model hmodel
  obtain ⟨entry, -, rfl⟩ := List.mem_map.mp hmodel
  have hannotations : Annotations.IsExtracted (.ofAttributes entry.attrs) :=
    Annotations.isExtracted_ofAttributes _
  refine ⟨hannotations, fun field hfield => ?_⟩
  -- the fields come from the struct, then from its storage, then from its declared properties
  have hshown : ExtractedFields (putMembers (((namedFieldsOf entry).filter fun f =>
      !f.annotations.isHidden).map fun f => (f.name, f.modelField)) []) := by
    refine forall_mem_putMembers (fun entry hentry => ?_) (List.forall_mem_nil _)
    obtain ⟨f, hf, rfl⟩ := List.mem_map.mp hentry
    exact isExtracted_of_mem_namedFieldsOf f (List.mem_filter.mp hf).1
  exact (hshown.addNames _).addProperties hannotations field (List.mem_filter.mp hfield).1

end AnnotatedApi
