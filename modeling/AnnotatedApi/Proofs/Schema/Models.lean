import AnnotatedApi.Proofs.Model.Fields
import AnnotatedApi.Proofs.Schema.Fields

/-! # The schemas of models

The schema of a model has a property for each of its fields, in their order. What the schema
requires are the names that are declared for the whole model, or else the fields that are required
by themselves. For these there is one rule, although a field is described in four ways:
`ModelField.IsRequired`. The keywords that are declared for the model change neither. -/

namespace AnnotatedApi

variable {names : ModelNames}

/-! ## Required fields -/

namespace ModelField

/-- Whether the values of a field may be null: as its relationship says where that describes the
field, else as its property declares, else by its type. -/
def allowsNull (field : ModelField) (names : ModelNames) : Bool :=
  if (names.optionalFragment? field.reference?).isSome then field.isNullable
  else (field.annotations.relationship?.bind RelationshipDecl.nullable).getD field.isNullable

/-- A field is required as declared, or else if it does not allow null and is no array or object in
place. -/
def IsRequired (field : ModelField) (names : ModelNames) (name : String) (cast : Option String) :
    Prop :=
  field.annotations.property?.bind PropertyDecl.required = some true ∨
    field.annotations.property?.bind PropertyDecl.required = none ∧
      field.allowsNull names = false ∧ (field.fragment names name cast).1.isNested = false

instance (field : ModelField) (names : ModelNames) (name : String) (cast : Option String) :
    Decidable (field.IsRequired names name cast) :=
  inferInstanceAs (Decidable (_ ∨ _))

/-- Whichever way a field is described, it is required by the one rule. -/
theorem snd_fragment_iff (field : ModelField) (names : ModelNames) (name : String)
    (cast : Option String) :
    (field.fragment names name cast).2 = true ↔ field.IsRequired names name cast := by
  -- all four ways to describe a field ask the same of `allowsNull` and of the fragment
  have hrule : (field.fragment names name cast).2 =
      (field.annotations.property?.bind PropertyDecl.required).getD
        (!field.allowsNull names && !(field.fragment names name cast).1.isNested) := by
    rw [allowsNull, reference?, fragment]
    dsimp only
    cases hreference : names.optionalFragment?
        (field.annotations.property?.bind fun decl => decl.attrs.reference) with
    | some fragment =>
        -- a pointer is no array or object in place
        obtain ⟨pointer, rfl⟩ := ModelNames.exists_ref_of_optionalFragment? hreference
        simp [Fragment.isNested]
    | none =>
        cases field.annotations.relationship? with
        | some relationship => rfl
        | none => rfl
  rw [hrule, IsRequired]
  cases field.annotations.property?.bind PropertyDecl.required with
  | none => simp
  | some required => simp

end ModelField

/-! ## Keywords -/

/-- Keywords that are laid over a schema twice are laid over it once. -/
theorem Schema.overlay_overlay (attrs : SchemaAttrs) (schema : Schema) :
    (schema.overlay attrs).overlay attrs = schema.overlay attrs := by
  have hself : ∀ {α : Type} (first second : Option α),
      (first <|> (first <|> second)) = (first <|> second) := by
    intro α first second
    cases first <;> rfl
  simp only [overlay, hself]

/-! ## Models -/

namespace Model

/-- The reference that the schema of a model declares. -/
def reference? (model : Model) : Option String :=
  model.annotations.schema?.bind fun decl => decl.attrs.reference

/-- The names that the schema of a model declares as required. -/
def declaredRequired (model : Model) : List String :=
  (model.annotations.schema?.bind SchemaDecl.required).getD []

/-- What the schema of a model says of its fields. -/
structure Describes (model : Model) (names : ModelNames) (schema : Schema) : Prop where
  /-- The properties are the fields, in order, each with its fragment. -/
  properties : schema.properties = model.fields.map fun entry =>
    (entry.1, (entry.2.fragment names entry.1 (model.castFor? entry.1)).1)
  /-- No field is required twice. -/
  nodup : schema.required.Nodup
  /-- The declared names are required, each where it is declared first. -/
  declared : model.declaredRequired ≠ [] → FirstSeen model.declaredRequired schema.required
  /-- Where no names are declared, those fields are required that are by themselves, in order. -/
  inferred : model.declaredRequired = [] → schema.required =
    memberNames (model.fields.filter fun entry =>
      entry.2.IsRequired names entry.1 (model.castFor? entry.1))
  /-- All declared keywords are there. -/
  overlaid : ∀ decl ∈ model.annotations.schema?, schema.overlay decl.attrs = schema

variable {model : Model}

/-- The required fields are the declared names, or else those fields that are required by
themselves, in either case without repetitions. -/
theorem requiredFields_eq (model : Model) (names : ModelNames) :
    model.requiredFields names =
      if model.declaredRequired ≠ [] then model.declaredRequired.eraseDups
      else (memberNames (model.fields.filter fun entry =>
        entry.2.IsRequired names entry.1 (model.castFor? entry.1))).eraseDups := by
  have hinferred : memberNames ((model.fieldFragments names).filter fun entry => entry.2.2) =
      memberNames (model.fields.filter fun entry =>
        entry.2.IsRequired names entry.1 (model.castFor? entry.1)) := by
    rw [memberNames, fieldFragments, List.filter_map, List.map_map]
    congr 1
    refine List.filter_congr fun entry _ => ?_
    rw [Bool.eq_iff_iff, decide_eq_true_iff]
    exact entry.2.snd_fragment_iff names entry.1 (model.castFor? entry.1)
  rw [requiredFields, declaredRequired, hinferred]
  cases model.annotations.schema?.bind SchemaDecl.required with
  | none => rfl
  | some declared => cases declared <;> rfl

/-- Fields of different names become the properties as they are. -/
theorem collectMembers_fieldFragments (h : (memberNames model.fields).Nodup) (names : ModelNames) :
    collectMembers (mapMembers Prod.fst (model.fieldFragments names)) =
      model.fields.map fun entry =>
        (entry.1, (entry.2.fragment names entry.1 (model.castFor? entry.1)).1) := by
  have hmap : mapMembers Prod.fst (model.fieldFragments names) =
      model.fields.map fun entry =>
        (entry.1, (entry.2.fragment names entry.1 (model.castFor? entry.1)).1) := by
    rw [mapMembers, fieldFragments, List.map_map]
    rfl
  rw [hmap, collectMembers_eq_self]
  rw [memberNames, List.map_map]
  exact h

/-- The declared keywords of a model leave its properties alone. -/
theorem properties_inlineSchema (model : Model) (names : ModelNames) :
    (model.inlineSchema names).properties =
      collectMembers (mapMembers Prod.fst (model.fieldFragments names)) := by
  rw [inlineSchema]
  dsimp only
  split <;> rfl

/-- A fragment in place of a model is the schema of its fields. -/
theorem eq_inlineSchema_of_fragment {schema : Schema} (h : model.fragment names = .inline schema) :
    schema = model.inlineSchema names := by
  rw [fragment] at h
  split at h
  · next fragment hfragment =>
    obtain ⟨pointer, rfl⟩ := ModelNames.exists_ref_of_optionalFragment? hfragment
    exact Fragment.noConfusion h
  · exact (Fragment.inline.inj h).symm

/-- The schema in place of a model describes its fields. -/
theorem describes_inlineSchema (h : (memberNames model.fields).Nodup) (names : ModelNames) :
    model.Describes names (model.inlineSchema names) := by
  -- the declared keywords leave the required names alone
  have hrequired : (model.inlineSchema names).required = model.requiredFields names := by
    rw [inlineSchema]
    dsimp only
    split <;> rfl
  refine ⟨?_, ?_, ?_, ?_, ?_⟩
  · rw [properties_inlineSchema, collectMembers_fieldFragments h]
  · rw [hrequired, requiredFields_eq]
    split <;> exact nodup_eraseDups _
  · intro hdeclared
    rw [hrequired, requiredFields_eq, if_pos hdeclared]
    exact firstSeen_eraseDups _
  · intro hnone
    rw [hrequired, requiredFields_eq, if_neg (not_not_intro hnone), ← memberNames_collectMembers,
      collectMembers_eq_self (h.sublist (memberNames_filter_sublist _ _))]
  · intro decl hdecl
    rw [inlineSchema, Option.mem_def.mp hdecl]
    exact congrArg (fun schema : Schema => { schema with title := decl.title <|> some model.name })
      (Schema.overlay_overlay decl.attrs _)

/-- Unless a model refers to another schema, its fragment is a schema in place that describes its
fields: a property for each, and required as declared for the model or else by the one rule. -/
theorem describes_fragment (hfields : (memberNames model.fields).Nodup)
    (h : RefersToNothing model.reference?) (names : ModelNames) :
    ∃ schema, model.fragment names = .inline schema ∧ model.Describes names schema := by
  refine ⟨model.inlineSchema names, ?_, describes_inlineSchema hfields names⟩
  have hnone : names.optionalFragment? model.reference? = none :=
    ModelNames.optionalFragment?_eq_none_iff.mpr h
  rw [reference?] at hnone
  rw [fragment, hnone]

/-- A ticket: a number, a title, a note that is declared not to be required, labels, an owner that
may be missing, and a queue. Its schema has a description. -/
def ticketModel : Model where
  identifier := "crate::models::Ticket"
  name := "Ticket"
  table := "tickets"
  fields := [
    ("id", {}),
    ("title", {}),
    ("note", { annotations := [.property (.mk none {} (some false) none [])] }),
    ("labels", {}),
    ("owner", { annotations := [.relationship ⟨.belongsTo, "User", none, some true⟩] }),
    ("queue", { annotations := [.property (.mk none { reference := some "Queue" } none none [])] })]
  casts := [("id", "integer"), ("labels", "json")]
  fillable := []
  hidden := []
  annotations := [.schema { attrs := { description := some "A ticket" } }]

/-- A ticket requires its number, its title and its queue. -/
theorem describes_fragment_ticketModel :
    (memberNames ticketModel.fields).Nodup ∧ RefersToNothing ticketModel.reference? ∧
      ∃ schema, ticketModel.fragment {} = .inline schema ∧ ticketModel.Describes {} schema ∧
        schema.required = ["id", "title", "queue"] := by
  have hfields : (memberNames ticketModel.fields).Nodup := by decide
  have hplace : RefersToNothing ticketModel.reference? :=
    fun text htext => absurd htext (Option.not_mem_none text)
  obtain ⟨schema, hschema, hdescribes⟩ := describes_fragment hfields hplace {}
  refine ⟨hfields, hplace, schema, hschema, hdescribes, ?_⟩
  rw [hdescribes.inferred rfl]
  rfl

end Model

/-! ## Models that are found -/

/-- The fields of a model that is found have different names. -/
theorem Model.nodup_fields_ofEntry (config : Config) (entry : Source.TypeEntry) :
    (memberNames (Model.ofEntry config entry).fields).Nodup := by
  rw [Source.TypeEntry.fields_ofEntry]
  exact entry.nodup_allFields.sublist (memberNames_filter_sublist _ _)

end AnnotatedApi
