import Mathlib
import AnnotatedApi.Proofs.Schema.Models

/-! # Hidden fields

A field that is marked as hidden takes its name out of the model, and so out of the model's schema,
whatever place the name comes from. The mark is only looked at on fields that are written, though: a
field that serialization skips hides nothing, and its name is documented after all where a list or a
declared property brings it back in. The main statement says exactly when that happens. -/

namespace AnnotatedApi

open Source

/-! ## The properties of a schema in place -/

/-- The properties of a model's schema in place are named as the fields of the model. -/
theorem Model.mem_memberNames_properties_iff {model : Model} {names : ModelNames} {schema : Schema}
    (h : model.fragment names = .inline schema) {name : String} :
    name ∈ memberNames schema.properties ↔ name ∈ memberNames model.fields := by
  rw [eq_inlineSchema_of_fragment h, properties_inlineSchema, memberNames_collectMembers,
    memberNames_mapMembers, List.mem_eraseDups, fieldFragments, memberNames, List.map_map]
  rfl

/-! ## Leaks -/

namespace Source.TypeEntry

variable {entry : TypeEntry} {config : Config} {name : String}

/-- How the name of a field that is marked as hidden is documented after all. -/
structure Leaks (entry : TypeEntry) (config : Config) (field : Field) (name : String) : Prop where
  /-- The field is skipped where values of the struct are written, so its mark is not looked at. -/
  skipped : field.isSkipped = true
  /-- The name comes in from one of the four places. -/
  named : name ∈ entry.fieldSources
  /-- Nothing else hides the name. -/
  unhidden : ¬ entry.Hides config name

/-- A marked field that is written hides its name. -/
theorem hides_of_isHidden {field : Field} (hfield : field ∈ entry.fields)
    (hhidden : field.isHidden = true) (hname : field.apiName? = some name)
    (hwritten : field.isSkipped = false) : entry.Hides config name :=
  .inl ⟨field, hfield, hwritten, hhidden, hname⟩

end Source.TypeEntry

namespace Model

/-- A field that is marked as hidden is no field of the model, and no property of its schema in
place, unless it leaks. -/
theorem not_mem_fields_iff_of_isHidden {entry : TypeEntry} {field : Field} {name : String}
    (hfield : field ∈ entry.fields) (hhidden : field.isHidden = true)
    (hname : field.apiName? = some name) (config : Config) :
    (name ∉ memberNames (Model.ofEntry config entry).fields ↔ ¬ entry.Leaks config field name) ∧
      ∀ names schema, (Model.ofEntry config entry).fragment names = .inline schema →
        (name ∉ memberNames schema.properties ↔ ¬ entry.Leaks config field name) := by
  have hfields : name ∈ memberNames (Model.ofEntry config entry).fields ↔
      entry.Leaks config field name := by
    rw [TypeEntry.mem_memberNames_fields_iff]
    constructor
    · rintro ⟨hnamed, hshown⟩
      refine ⟨?_, hnamed, hshown⟩
      by_contra hwritten
      exact hshown (TypeEntry.hides_of_isHidden hfield hhidden hname
        (Bool.not_eq_true _ ▸ hwritten))
    · intro hleaks
      exact ⟨hleaks.named, hleaks.unhidden⟩
  refine ⟨not_congr hfields, fun names schema hschema => not_congr ?_⟩
  rw [mem_memberNames_properties_iff hschema]
  exact hfields

/-- The password of a user. -/
def passwordField (attrs : List Attribute) : Field :=
  ⟨attrs, some "password", .path .plain [] [.mk "String" .none none []]⟩

/-- A user whose password is fillable. -/
def userEntry (attrs : List Attribute) : TypeEntry where
  qualifiedName := "crate::models::User"
  name := "User"
  kind := .struct
  path := "src/models.rs"
  attrs := [⟨false, ["model"], .list [.name "fillable", .sign '=' false,
    .group .bracket [.literal ⟨.text "password", "", "\"password\"".toList⟩]]⟩]
  item := some ⟨[], "User", false, [passwordField attrs]⟩

/-- The mark of a hidden field. -/
def hiddenMark : Attribute :=
  ⟨false, ["hidden"], .bare⟩

/-- The mark of a field that serialization skips. -/
def skipMark : Attribute :=
  ⟨false, ["serde"], .list [.name "skip"]⟩

/-- The password is fillable, whatever the marks of its field are. -/
theorem fillable_userEntry (attrs : List Attribute) :
    (userEntry attrs).storage.fillable = ["password"] := by
  have hstorage : StorageDecl.ofAttributes (userEntry []).attrs =
      { fillable := ["password"] } := by cbv
  exact congrArg StorageDecl.fillable hstorage

/-- The mark takes the password out of the model, although it is fillable. -/
theorem not_mem_fields_userEntry :
    passwordField [hiddenMark] ∈ (userEntry [hiddenMark]).fields ∧
      (passwordField [hiddenMark]).isHidden = true ∧
      (passwordField [hiddenMark]).apiName? = some "password" ∧
      "password" ∈ (userEntry [hiddenMark]).storage.fillable ∧
      "password" ∉ memberNames (Model.ofEntry {} (userEntry [hiddenMark])).fields := by
  have hfield : passwordField [hiddenMark] ∈ (userEntry [hiddenMark]).fields := List.mem_cons_self
  have hhidden : (passwordField [hiddenMark]).isHidden = true := by cbv
  have hname : (passwordField [hiddenMark]).apiName? = some "password" := by cbv
  have hwritten : (passwordField [hiddenMark]).isSkipped = false := by cbv
  refine ⟨hfield, hhidden, hname, fillable_userEntry _ ▸ List.mem_cons_self, ?_⟩
  refine (not_mem_fields_iff_of_isHidden hfield hhidden hname {}).1.mpr fun hleaks => ?_
  exact absurd (hwritten.symm.trans hleaks.skipped) (by decide)

/-- Where serialization skips the hidden password as well, the model has it. -/
theorem mem_fields_skippedPassword :
    passwordField [skipMark, hiddenMark] ∈ (userEntry [skipMark, hiddenMark]).fields ∧
      (passwordField [skipMark, hiddenMark]).isHidden = true ∧
      (passwordField [skipMark, hiddenMark]).apiName? = some "password" ∧
      "password" ∈ memberNames (Model.ofEntry {} (userEntry [skipMark, hiddenMark])).fields := by
  have hskipped : (passwordField [skipMark, hiddenMark]).isSkipped = true := by cbv
  refine ⟨List.mem_cons_self, by cbv, by cbv, TypeEntry.mem_memberNames_fields_iff.mpr ⟨?_, ?_⟩⟩
  · rw [TypeEntry.fieldSources, fillable_userEntry]
    simp
  · rintro (⟨field, hfield, hwritten, -⟩ | ⟨hlisted, -⟩)
    · rw [List.mem_singleton.mp hfield] at hwritten
      exact absurd (hskipped.symm.trans hwritten) (by decide)
    · have hhidden : (userEntry [skipMark, hiddenMark]).storage.hidden = [] := by cbv
      exact absurd (hhidden ▸ hlisted) List.not_mem_nil

end Model

end AnnotatedApi
