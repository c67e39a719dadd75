import AnnotatedApi.Proofs.Model.Hiding
import AnnotatedApi.Proofs.Schema.Nesting

/-! # Properties of declared schemas

A schema that is declared for a struct may list properties. Used in place, as the schema of a
parameter or of a media type, such a declaration gives an object that has them all. As the schema of
a model it does not: the properties of a model are its fields, and what the declaration lists is not
among the places that fields come from. So a listed property is documented for the model only where
it is a field already. -/

namespace AnnotatedApi

open Source

variable {names : ModelNames}

namespace SchemaDecl

variable {decl : SchemaDecl}

/-- A schema that lists what is required has the properties that it has without this list. -/
theorem exists_inline_of_refersToNothing (h : RefersToNothing decl.attrs.reference) :
    ∃ schema, decl.fragment names = .inline schema ∧
      schema.properties = (decl.shape.schema names).properties := by
  rw [fragment, ModelNames.optionalFragment?_eq_none_iff.mpr h]
  dsimp only
  split
  · exact ⟨_, rfl, rfl⟩
  · exact ⟨_, rfl, rfl⟩

/-- A declared object has every property that the declaration lists. -/
theorem mem_memberNames_properties (hitems : decl.items = none)
    (htype : ∀ type ∈ decl.attrs.type, type = "object") {p : PropertyDecl}
    (hp : p ∈ decl.properties) {name : String} (hname : p.name = some name) :
    name ∈ memberNames (decl.shape.schema names).properties := by
  have hobject : (decl.shape.schema names).type = some "object" := by
    have hnested : decl.properties.isEmpty = false :=
      List.isEmpty_eq_false_iff.mpr (List.ne_nil_of_mem hp)
    rw [ShapeDecl.type_schema, shape, hitems, hnested]
    cases hdeclared : decl.attrs.type with
    | none => rfl
    | some type => rw [htype type hdeclared]; rfl
  rw [ShapeDecl.properties_schema hobject, memberNames_collectMembers, memberNames_mapMembers,
    memberNames_named_builtProperties, List.mem_eraseDups]
  exact List.mem_filterMap.mpr ⟨p, hp, hname⟩

end SchemaDecl

namespace Model

/-- A model whose declared schema refers to nothing has a schema in place. -/
theorem fragment_ofEntry {entry : TypeEntry} {decl : SchemaDecl}
    (hdecl : (Annotations.ofAttributes entry.attrs).schema? = some decl)
    (hplace : RefersToNothing decl.attrs.reference) (config : Config) (names : ModelNames) :
    (Model.ofEntry config entry).fragment names =
      .inline ((Model.ofEntry config entry).inlineSchema names) := by
  have hannotations : (Model.ofEntry config entry).annotations.schema? = some decl := hdecl
  rw [fragment, hannotations, Option.bind_some, ModelNames.optionalFragment?_eq_none_iff.mpr hplace]

/-- A schema declared for a struct, without reference, elements and another type than that of
objects, has all properties that it lists where it is used in place. The model has those of them
that are not hidden and come in from one of the places of fields. -/
theorem mem_properties_declaredSchema_iff {entry : TypeEntry} {decl : SchemaDecl}
    (hdecl : (Annotations.ofAttributes entry.attrs).schema? = some decl)
    (hplace : RefersToNothing decl.attrs.reference) (hitems : decl.items = none)
    (htype : ∀ type ∈ decl.attrs.type, type = "object") (config : Config) (names : ModelNames) :
    ∃ component inPlace, (Model.ofEntry config entry).fragment names = .inline component ∧
      decl.fragment names = .inline inPlace ∧
        ∀ p ∈ decl.properties, ∀ name ∈ p.name, name ∈ memberNames inPlace.properties ∧
          (¬ entry.Hides config name →
            (name ∈ memberNames component.properties ↔ name ∈ entry.fieldSources)) := by
  obtain ⟨inPlace, hinPlace, hproperties⟩ := SchemaDecl.exists_inline_of_refersToNothing hplace
  have hcomponent := fragment_ofEntry hdecl hplace config names
  refine ⟨_, inPlace, hcomponent, hinPlace, ?_⟩
  intro p hp name hname
  refine ⟨hproperties ▸ SchemaDecl.mem_memberNames_properties hitems htype hp hname, ?_⟩
  intro hshown
  rw [mem_memberNames_properties_iff hcomponent, TypeEntry.mem_memberNames_fields_iff,
    and_iff_left hshown]

/-- A model of a task with a title. Its schema is declared to have a title and a progress. -/
def trackedTask : TypeEntry where
  qualifiedName := "crate::models::Task"
  name := "Task"
  kind := .struct
  path := "src/models.rs"
  attrs := [⟨false, ["model"], .bare⟩, ⟨false, ["schema"], .list [.name "properties",
    .group .paren [.name "title", .group .paren [], .sign ',' false, .name "progress",
      .group .paren []]]⟩]
  item := some ⟨[], "Task", false,
    [⟨[], some "title", .path .plain [] [.mk "String" .none none []]⟩]⟩

/-- The declared schema of a task. -/
def trackedSchema : SchemaDecl where
  properties := [.mk (some "title") {} none none [], .mk (some "progress") {} none none []]

/-- What a task declares is its schema. -/
theorem schema?_trackedTask :
    (Annotations.ofAttributes trackedTask.attrs).schema? = some trackedSchema := by
  cbv

/-- The names of the fields of a task. -/
theorem fieldSources_trackedTask : trackedTask.fieldSources = ["title"] := by
  cbv

/-- No name of a task is hidden. -/
theorem not_hides_trackedTask (config : Config) (name : String) :
    ¬ trackedTask.Hides config name := by
  rintro (⟨field, hfield, -, hhidden, -⟩ | ⟨hlisted, -⟩)
  · rw [List.mem_singleton.mp hfield] at hhidden
    exact Bool.false_ne_true hhidden
  · have hnone : trackedTask.storage.hidden = [] := by cbv
    exact absurd (hnone ▸ hlisted) List.not_mem_nil

/-- The title of a task is a field, so its model has it as its declared schema does. -/
theorem mem_properties_trackedTask :
    (Annotations.ofAttributes trackedTask.attrs).schema? = some trackedSchema ∧
      RefersToNothing trackedSchema.attrs.reference ∧ trackedSchema.items = none ∧
      (∀ type ∈ trackedSchema.attrs.type, type = "object") ∧
      ∃ component inPlace, (Model.ofEntry {} trackedTask).fragment {} = .inline component ∧
        trackedSchema.fragment {} = .inline inPlace ∧
          "title" ∈ memberNames inPlace.properties ∧ "title" ∈ memberNames component.properties := by
  have hplace : RefersToNothing trackedSchema.attrs.reference := forall_mem_none
  have htype : ∀ type ∈ trackedSchema.attrs.type, type = "object" := forall_mem_none
  obtain ⟨component, inPlace, hcomponent, hinPlace, hlisted⟩ :=
    mem_properties_declaredSchema_iff schema?_trackedTask hplace rfl htype {} {}
  obtain ⟨htitle, hfield⟩ := hlisted _ List.mem_cons_self "title" rfl
  refine ⟨schema?_trackedTask, hplace, rfl, htype, component, inPlace, hcomponent, hinPlace,
    htitle, (hfield (not_hides_trackedTask {} "title")).mpr ?_⟩
  rw [fieldSources_trackedTask]
  exact List.mem_cons_self

/-- The progress of a task is no field, so its model does not have it, as its declared schema
does. -/
theorem not_mem_properties_progress :
    ¬ trackedTask.Hides {} "progress" ∧
      ∃ component inPlace, (Model.ofEntry {} trackedTask).fragment {} = .inline component ∧
        trackedSchema.fragment {} = .inline inPlace ∧
          "progress" ∈ memberNames inPlace.properties ∧
            "progress" ∉ memberNames component.properties := by
  have hplace : RefersToNothing trackedSchema.attrs.reference := forall_mem_none
  have hcomponent := fragment_ofEntry schema?_trackedTask hplace {} {}
  refine ⟨not_hides_trackedTask {} "progress", _, _, hcomponent, rfl,
    List.mem_cons_of_mem _ List.mem_cons_self, ?_⟩
  rw [mem_memberNames_properties_iff hcomponent, TypeEntry.mem_memberNames_fields_iff,
    fieldSources_trackedTask]
  simp

end Model

end AnnotatedApi
