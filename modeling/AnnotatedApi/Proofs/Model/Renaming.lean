import Mathlib
import AnnotatedApi.Proofs.Schema.Models

/-! # Renamed fields

A field has up to three names: its identifier, the name that serialization gives it, and the API
name under which the model knows it. The API name is the name of the serialization, but for a raw
identifier that is not renamed, which keeps its mark. The lists and casts that are declared for a
struct are looked up under the API name alone. So what they say of an identifier reaches the field
where the identifier is its API name; else it brings a second field into the model, or hides
nothing. -/

namespace AnnotatedApi

open Source

/-! ## Names of fields -/

namespace Source.Field

/-- The name that the options of serialization give a field. -/
def rename? (field : Field) : Option String :=
  (FieldOptions.ofAttributes field.attrs).rename

/-- The identifier of a field, without the mark of a raw name. -/
def identifier? (field : Field) : Option String :=
  field.name.map unraw

/-- The name that serialization gives a field: what it is renamed to, else its identifier. -/
def serialName? (field : Field) : Option String :=
  field.identifier?.map field.rename?.getD

variable {field : Field} {own api : String}

/-- The API name of a field is the name that serialization gives it where the field is renamed or
its identifier is written without a mark. -/
theorem serialName?_eq_apiName?_iff (hown : field.identifier? = some own)
    (hapi : field.apiName? = some api) :
    field.serialName? = some api ↔ field.rename?.isSome ∨ field.name = some own := by
  obtain ⟨written, hwritten, rfl⟩ := Option.map_eq_some_iff.mp hown
  rw [apiName?, hwritten] at hapi
  rw [serialName?, identifier?, hwritten, ← hapi]
  change some (field.rename?.getD (unraw written)) = some (field.rename?.getD written) ↔ _
  cases field.rename? with
  | none => simp [eq_comm]
  | some name => simp

end Source.Field

/-! ## Looking a field up -/

/-- How a model has a shown field of its struct, whose identifier is `own`. -/
structure Model.HasField (model : Model) (config : Config) (entry : TypeEntry) (field : Field)
    (own api : String) : Prop where
  /-- The model has the field once, unless its API name is hidden. -/
  once : (memberNames model.fields).count api = if entry.Hides config api then 0 else 1
  /-- The API name is the name that serialization gives, but for raw identifiers that are not
  renamed. -/
  serial : field.serialName? = some api ↔ field.rename?.isSome ∨ field.name = some own
  /-- An identifier that is fillable or has a cast brings in no second field exactly where it is the
  API name or hidden. -/
  second : own ∈ entry.storage.fillable ++ memberNames entry.storage.casts →
    ((own ∈ memberNames model.fields → own = api) ↔ own = api ∨ entry.Hides config own)
  /-- A cast that is declared for the identifier is the cast of the field exactly where the
  identifier is the API name, or where the field has this cast anyhow. -/
  cast : ∀ cast, getMember? own entry.storage.casts = some cast →
    (model.castFor? api = some cast ↔ own = api ∨
      (getMember? api entry.storage.casts <|>
        (entry.fieldsNamed api).findSome? fun field => field.type.castHint?) = some cast)
  /-- An identifier that is listed as hidden takes the field away exactly where it is the API name,
  or where the field is hidden anyhow. -/
  removed : own ∈ entry.storage.hidden → config.includesHidden = false →
    (api ∉ memberNames model.fields ↔ own = api ∨ entry.Hides config api)
  /-- In every schema in place of the model the properties are its fields, with their casts. -/
  described : ∀ names schema, model.fragment names = .inline schema → model.Describes names schema

namespace Source.TypeEntry

variable {entry : TypeEntry} {config : Config} {field : Field} {own api : String}

/-- The API name of a shown field is one of the names that a model takes its fields from. -/
theorem mem_fieldSources_of_shown (hfield : field ∈ entry.shownFields)
    (hapi : field.apiName? = some api) : api ∈ entry.fieldSources := by
  simp only [fieldSources, List.append_assoc]
  exact List.mem_append_left _ (List.mem_filterMap.mpr ⟨field, hfield, hapi⟩)

/-- So is every name that is fillable or has a declared cast. -/
theorem mem_fieldSources_of_declared
    (h : own ∈ entry.storage.fillable ++ memberNames entry.storage.casts) :
    own ∈ entry.fieldSources := by
  rw [fieldSources, List.append_assoc _ entry.storage.fillable]
  exact List.mem_append_left _ (List.mem_append_right _ h)

/-- A shown field is in the model unless its API name is hidden. -/
theorem mem_fields_iff_of_shown (hfield : field ∈ entry.shownFields)
    (hapi : field.apiName? = some api) :
    api ∈ memberNames (Model.ofEntry config entry).fields ↔ ¬ entry.Hides config api := by
  rw [mem_memberNames_fields_iff, and_iff_right (mem_fieldSources_of_shown hfield hapi)]

end Source.TypeEntry

namespace Model

/-- The properties of a schema that describes a model are named as the fields of the model. -/
theorem Describes.memberNames_properties {model : Model} {names : ModelNames} {schema : Schema}
    (h : model.Describes names schema) :
    memberNames schema.properties = memberNames model.fields := by
  rw [h.properties, memberNames, List.map_map]
  rfl

/-- A model has every shown field of its struct once, under its API name. What lists and casts say
of the identifier of the field reaches it where the identifier is the API name. -/
theorem hasField_ofEntry {entry : TypeEntry} {field : Field} {own api : String}
    (hfield : field ∈ entry.shownFields) (hown : field.identifier? = some own)
    (hapi : field.apiName? = some api) (config : Config) :
    (Model.ofEntry config entry).HasField config entry field own api where
  once := by
    rw [(nodup_fields_ofEntry config entry).count]
    simp only [TypeEntry.mem_fields_iff_of_shown hfield hapi, ite_not]
  serial := Field.serialName?_eq_apiName?_iff hown hapi
  second := by
    intro hdeclared
    have hsource := TypeEntry.mem_fieldSources_of_declared hdeclared
    rw [TypeEntry.mem_memberNames_fields_iff, and_iff_right hsource]
    exact or_iff_not_imp_right.symm
  cast := by
    intro cast hcast
    rw [(listsFields_ofEntry config entry).casts]
    constructor
    · exact Or.inr
    · rintro (rfl | hanyhow)
      · rw [hcast]
        rfl
      · exact hanyhow
  removed := by
    intro hlisted hincludes
    rw [TypeEntry.mem_fields_iff_of_shown hfield hapi, not_not]
    constructor
    · exact Or.inr
    · rintro (rfl | hanyhow)
      · exact .inr ⟨hlisted, hincludes⟩
      · exact hanyhow
  described := by
    intro names schema hschema
    rw [eq_inlineSchema_of_fragment hschema]
    exact describes_inlineSchema (nodup_fields_ofEntry config entry) names

/-- A text in an attribute. -/
def textToken (text : String) : Token :=
  .literal ⟨.text text, "", ("\"" ++ text ++ "\"").toList⟩

/-- A field that is renamed where values are written. -/
def renamedField (own api type : String) : Field :=
  ⟨[⟨false, ["serde"], .list [.name "rename", .sign '=' false, textToken api]⟩], some own,
    .path .plain [] [.mk type .none none []]⟩

/-- A field whose identifier is a keyword. -/
def keywordField : Field :=
  ⟨[], some "r#type", .path .plain [] [.mk "String" .none none []]⟩

/-- An order. Its field `done` is renamed, is fillable and has a cast, its field `token` is renamed
and hidden, and its field `type` has a raw identifier. -/
def orderEntry : TypeEntry where
  qualifiedName := "crate::models::Order"
  name := "Order"
  kind := .struct
  path := "src/models.rs"
  attrs := [⟨false, ["model"], .list [
    .name "fillable", .sign '=' false, .group .bracket [textToken "done"], .sign ',' false,
    .name "casts", .group .paren [.name "done", .sign '=' false, textToken "string"],
    .sign ',' false,
    .name "hidden", .sign '=' false, .group .bracket [textToken "token"]]⟩]
  item := some ⟨[], "Order", false,
    [renamedField "done" "isDone" "bool", renamedField "token" "apiToken" "String", keywordField]⟩

/-- What is declared of the storage of orders. -/
theorem storage_orderEntry :
    orderEntry.storage =
      { fillable := ["done"], hidden := ["token"], casts := [("done", "string")] } := by
  cbv

/-- An order has no annotations. -/
theorem annotations_orderEntry : Annotations.ofAttributes orderEntry.attrs = [] := by
  cbv

/-- The fields of an order are neither skipped nor marked. -/
theorem isHidden_orderEntry :
    ∀ field ∈ orderEntry.fields, field.isSkipped = false ∧ field.isHidden = false := by
  have hrenamed : ∀ own api type, (renamedField own api type).isSkipped = false ∧
      (renamedField own api type).isHidden = false := by
    intro own api type
    exact ⟨rfl, by cbv⟩
  have hkeyword : keywordField.isSkipped = false ∧ keywordField.isHidden = false :=
    ⟨by cbv, by cbv⟩
  intro field hfield
  rcases hfield with _ | ⟨_, _ | ⟨_, _ | ⟨_, ⟨⟩⟩⟩⟩
  · exact hrenamed _ _ _
  · exact hrenamed _ _ _
  · exact hkeyword

/-- All fields of an order are shown. -/
theorem shownFields_orderEntry : orderEntry.shownFields = orderEntry.fields := by
  refine List.filter_eq_self.mpr fun field hfield => ?_
  obtain ⟨hskipped, hhidden⟩ := isHidden_orderEntry field hfield
  rw [hskipped, hhidden]
  rfl

/-- Of an order, the listed name is hidden. -/
theorem hides_orderEntry_iff {name : String} : orderEntry.Hides {} name ↔ name = "token" := by
  rw [TypeEntry.Hides, storage_orderEntry]
  constructor
  · rintro (⟨field, hfield, -, hhidden, -⟩ | ⟨hlisted, -⟩)
    · rw [(isHidden_orderEntry field hfield).2] at hhidden
      exact absurd hhidden Bool.false_ne_true
    · exact List.mem_singleton.mp hlisted
  · rintro rfl
    exact .inr ⟨List.mem_cons_self, rfl⟩

/-- The names of the fields of an order. -/
theorem mem_fields_orderEntry_iff {name : String} :
    name ∈ memberNames (Model.ofEntry {} orderEntry).fields ↔
      name ∈ ["isDone", "apiToken", "r#type", "done"] := by
  have hsources : orderEntry.fieldSources = ["isDone", "apiToken", "r#type", "done", "done"] := by
    rw [TypeEntry.fieldSources, shownFields_orderEntry, storage_orderEntry,
      TypeEntry.declaredProperties, annotations_orderEntry]
    rfl
  rw [TypeEntry.mem_memberNames_fields_iff, hsources, hides_orderEntry_iff]
  constructor
  · rintro ⟨hname, -⟩
    simpa using hname
  · intro hname
    refine ⟨by simpa using hname, ?_⟩
    rintro rfl
    exact absurd hname (by decide)

/-- An order has its field `done` once under its API name, and a second one besides, as the
identifier is fillable. -/
theorem hasField_orderEntry :
    renamedField "done" "isDone" "bool" ∈ orderEntry.shownFields ∧
      (renamedField "done" "isDone" "bool").identifier? = some "done" ∧
      (renamedField "done" "isDone" "bool").apiName? = some "isDone" ∧
      (memberNames (Model.ofEntry {} orderEntry).fields).count "isDone" = 1 ∧
      "done" ∈ memberNames (Model.ofEntry {} orderEntry).fields := by
  have hfield : renamedField "done" "isDone" "bool" ∈ orderEntry.shownFields :=
    shownFields_orderEntry ▸ List.mem_cons_self
  have hown : (renamedField "done" "isDone" "bool").identifier? = some "done" := by cbv
  have hapi : (renamedField "done" "isDone" "bool").apiName? = some "isDone" := rfl
  have hmodel := hasField_ofEntry hfield hown hapi {}
  refine ⟨hfield, hown, hapi, ?_, ?_⟩
  · rw [hmodel.once, if_neg (hides_orderEntry_iff.not.mpr (by decide))]
  · have hlisted : "done" ∈
        orderEntry.storage.fillable ++ memberNames orderEntry.storage.casts := by
      rw [storage_orderEntry]
      decide
    by_contra hmissing
    rcases (hmodel.second hlisted).mp fun hmem => absurd hmem hmissing with hsame | hhidden
    · exact absurd hsame (by decide)
    · exact absurd (hides_orderEntry_iff.mp hhidden) (by decide)

/-- What is declared for the identifiers of an order's fields does not reach them. The fillable
`done` is a property besides `isDone`, which does not get its cast; the hidden `token` is there as
`apiToken`; and `type` keeps the mark of its raw identifier. -/
theorem splits_orderEntry :
    ∃ schema, (Model.ofEntry {} orderEntry).fragment {} = .inline schema ∧
      (renamedField "done" "isDone" "bool" ∈ orderEntry.shownFields ∧
        "done" ∈ orderEntry.storage.fillable ∧
        getMember? "done" orderEntry.storage.casts = some "string" ∧
        "isDone" ∈ memberNames schema.properties ∧ "done" ∈ memberNames schema.properties ∧
        (Model.ofEntry {} orderEntry).castFor? "isDone" = some "boolean") ∧
      (renamedField "token" "apiToken" "String" ∈ orderEntry.shownFields ∧
        "token" ∈ orderEntry.storage.hidden ∧ "apiToken" ∈ memberNames schema.properties) ∧
      (keywordField ∈ orderEntry.shownFields ∧ keywordField.serialName? = some "type" ∧
        "type" ∉ memberNames schema.properties ∧ "r#type" ∈ memberNames schema.properties) := by
  have hplace : RefersToNothing (Model.ofEntry {} orderEntry).reference? := by
    have hnone : (Model.ofEntry {} orderEntry).reference? = none := by
      show ((Annotations.ofAttributes orderEntry.attrs).schema?.bind fun decl =>
        decl.attrs.reference) = none
      rw [annotations_orderEntry]
      rfl
    rw [hnone]
    exact fun text htext => absurd htext (Option.not_mem_none text)
  obtain ⟨schema, hschema, hdescribes⟩ :=
    describes_fragment (nodup_fields_ofEntry {} orderEntry) hplace {}
  have hcast : (Model.ofEntry {} orderEntry).castFor? "isDone" = some "boolean" := by
    rw [(listsFields_ofEntry {} orderEntry).casts, TypeEntry.fieldsNamed, shownFields_orderEntry,
      storage_orderEntry]
    cbv
  refine ⟨schema, hschema, ?_⟩
  simp only [hdescribes.memberNames_properties, mem_fields_orderEntry_iff, storage_orderEntry,
    shownFields_orderEntry]
  exact ⟨⟨.head _, by decide, by decide, by decide, by decide, hcast⟩,
    ⟨.tail _ (.head _), by decide, by decide⟩,
    .tail _ (.tail _ (.head _)), by cbv, by decide, by decide⟩

end Model

end AnnotatedApi
