import AnnotatedApi.Model.Discovery
import AnnotatedApi.Proofs.Members

/-! # The fields of models

The fields of a model come from four places: the fields of its struct, the list of fillable fields,
the declared casts, and the properties that are declared for the struct. A name keeps the place at
which it first turns up. Fields are hidden in two ways, by a mark on the field and by a list, and
what is hidden is left out at the end, whatever place it came from. -/

namespace AnnotatedApi

open Source

/-! ## Fields of structs -/

namespace Source.Field

/-- The annotations of a field. -/
def annotations (field : Field) : Annotations :=
  .ofAttributes field.attrs

/-- Whether the field is left out where values of its struct are written. -/
def isSkipped (field : Field) : Bool :=
  (FieldOptions.ofAttributes field.attrs).skip

/-- Whether the field is marked as hidden. -/
def isHidden (field : Field) : Bool :=
  field.annotations.isHidden

/-- The name that a named field has where values of its struct are written. -/
def apiName? (field : Field) : Option String :=
  field.name.map fun name => (FieldOptions.ofAttributes field.attrs).rename.getD name

end Source.Field

namespace Source.TypeEntry

/-- The fields of a struct. -/
def fields (entry : TypeEntry) : List Field :=
  match entry.item with
  | some item => item.fields
  | none => []

/-- What the struct declares of its storage. -/
def storage (entry : TypeEntry) : StorageDecl :=
  .ofAttributes entry.attrs

/-- The properties that are declared for the struct. -/
def declaredProperties (entry : TypeEntry) : List PropertyDecl :=
  Annotations.properties (.ofAttributes entry.attrs)

/-- The fields that are neither skipped nor marked as hidden. -/
def shownFields (entry : TypeEntry) : List Field :=
  entry.fields.filter fun field => !field.isSkipped && !field.isHidden

/-- The shown fields of one name. -/
def fieldsNamed (entry : TypeEntry) (name : String) : List Field :=
  entry.shownFields.filter fun field => field.apiName? = some name

/-- The names of fields, place after place. -/
def fieldSources (entry : TypeEntry) : List String :=
  entry.shownFields.filterMap Field.apiName? ++ entry.storage.fillable ++
    memberNames entry.storage.casts ++ entry.declaredProperties.filterMap PropertyDecl.name

/-- A name is hidden when a field that is not skipped has the name and the mark, or when it is
listed as hidden and hidden fields are not to be included. -/
def Hides (entry : TypeEntry) (config : Config) (name : String) : Prop :=
  (∃ field ∈ entry.fields,
      field.isSkipped = false ∧ field.isHidden = true ∧ field.apiName? = some name) ∨
    name ∈ entry.storage.hidden ∧ config.includesHidden = false

instance (entry : TypeEntry) (config : Config) : DecidablePred (entry.Hides config) :=
  fun _ => inferInstanceAs (Decidable (_ ∨ _))

/-- The annotations that a field brings along from the struct; of several fields of one name the
last one counts. -/
def ownAnnotations (entry : TypeEntry) (name : String) : Annotations :=
  match (entry.fieldsNamed name).getLast? with
  | some field => field.annotations
  | none => []

/-- The annotation of a field that comes from the properties declared for the struct: the first of
the name, unless the field has a property of its own. -/
def attached (entry : TypeEntry) (name : String) : Annotations :=
  if (entry.ownAnnotations name).property?.isSome then []
  else ((entry.declaredProperties.find? fun decl => decl.name = some name).map
    Annotation.property).toList

end Source.TypeEntry

/-- What the fields of a model are, given its struct. -/
structure Model.ListsFields (model : Model) (config : Config) (entry : TypeEntry) : Prop where
  /-- The names are those from all four places that are not hidden, each where it is first seen. -/
  names : FirstSeen (entry.fieldSources.filter fun name => ¬ entry.Hides config name)
    (memberNames model.fields)
  /-- A declared cast counts before the hint of a type. -/
  casts : ∀ name, model.castFor? name =
    (getMember? name entry.storage.casts <|>
      (entry.fieldsNamed name).findSome? fun field => field.type.castHint?)
  /-- A property that is declared for the struct goes to a field without a property. -/
  annotations : ∀ field ∈ model.fields,
    field.2.annotations = entry.ownAnnotations field.1 ++ entry.attached field.1

/-! ## Named fields -/

namespace Source.TypeEntry

/-- The shown fields of a struct with their names. -/
def shownNamed (entry : TypeEntry) : List NamedField :=
  (namedFieldsOf entry).filter fun f => !f.annotations.isHidden

/-- The named fields that are marked as hidden. -/
def hiddenNamed (entry : TypeEntry) : List NamedField :=
  (namedFieldsOf entry).filter fun f => f.annotations.isHidden

end Source.TypeEntry

namespace Source.Field

/-- A field under a name. -/
def named (field : Field) (name : String) : NamedField :=
  ⟨name, field.annotations, field.type⟩

/-- A field is named where it is not skipped and has a name. -/
theorem ofField?_eq (field : Field) :
    NamedField.ofField? field =
      if field.isSkipped then none else field.apiName?.map field.named := by
  rw [NamedField.ofField?, isSkipped, apiName?]
  cases field.name with
  | none => cases (FieldOptions.ofAttributes field.attrs).skip <;> rfl
  | some name => rfl

end Source.Field

namespace Source.TypeEntry

variable {entry : TypeEntry} {name : String}

/-- The named fields are those that are not skipped. -/
theorem namedFieldsOf_eq (entry : TypeEntry) :
    namedFieldsOf entry = entry.fields.filterMap fun field =>
      if field.isSkipped then none else field.apiName?.map field.named := by
  rw [namedFieldsOf, fields, ← funext Field.ofField?_eq]
  cases entry.item <;> rfl

/-- The named fields that are shown are the shown fields. -/
theorem shownNamed_eq (entry : TypeEntry) :
    entry.shownNamed = entry.shownFields.filterMap fun field => field.apiName?.map field.named := by
  rw [shownNamed, namedFieldsOf_eq, shownFields, List.filter_filterMap, List.filterMap_filter]
  congr 1
  funext field
  cases field.isSkipped with
  | true => rfl
  | false =>
      cases field.apiName? with
      | none => simp
      | some name =>
          cases hhidden : field.isHidden <;>
            simpa [Option.filter, Field.named, Field.isHidden] using hhidden

/-- The names of the shown fields. -/
theorem map_name_shownNamed (entry : TypeEntry) :
    entry.shownNamed.map NamedField.name = entry.shownFields.filterMap Field.apiName? := by
  rw [shownNamed_eq, List.map_filterMap]
  congr 1
  funext field
  cases field.apiName? <;> rfl

/-- The shown fields of one name, as named fields. -/
theorem filter_shownNamed (entry : TypeEntry) (name : String) :
    entry.shownNamed.filter (fun f => f.name = name) =
      (entry.fieldsNamed name).map fun field => field.named name := by
  rw [shownNamed_eq, List.filter_filterMap, fieldsNamed, ← List.filterMap_eq_map,
    List.filterMap_filter]
  congr 1
  funext field
  cases field.apiName? with
  | none => simp
  | some own =>
      by_cases heq : own = name
      · simp [Option.filter, Field.named, heq]
      · simp [Option.filter, Field.named, heq]

/-- The names of the hidden fields that are not skipped. -/
theorem mem_map_name_hiddenNamed_iff :
    name ∈ entry.hiddenNamed.map NamedField.name ↔
      ∃ field ∈ entry.fields,
        field.isSkipped = false ∧ field.isHidden = true ∧ field.apiName? = some name := by
  rw [hiddenNamed, namedFieldsOf_eq, List.mem_map]
  simp only [List.mem_filter, List.mem_filterMap]
  constructor
  · rintro ⟨f, ⟨⟨field, hfield, hnamed⟩, hhidden⟩, rfl⟩
    split at hnamed
    · exact absurd hnamed (Option.some_ne_none f).symm
    · next hskip =>
      obtain ⟨name, hname, rfl⟩ := Option.map_eq_some_iff.mp hnamed
      exact ⟨field, hfield, Bool.eq_false_iff.mpr hskip, hhidden, hname⟩
  · rintro ⟨field, hfield, hskip, hhidden, hname⟩
    refine ⟨field.named name, ⟨⟨field, hfield, ?_⟩, hhidden⟩, rfl⟩
    rw [hskip, hname]
    rfl

end Source.TypeEntry

/-! ## Giving properties and casts to fields -/

namespace ModelField

/-- A field with a property, unless it has one. -/
def withProperty (field : ModelField) (decl : PropertyDecl) : ModelField :=
  if field.annotations.property?.isSome then field
  else { field with annotations := field.annotations ++ [.property decl] }

/-- A field that was given a property has one. -/
theorem isSome_property?_withProperty (field : ModelField) (decl : PropertyDecl) :
    (field.withProperty decl).annotations.property?.isSome = true := by
  rw [withProperty]
  split
  · next h => exact h
  · simp [Annotations.property?, Annotations.properties]

/-- A second property is not taken. -/
theorem withProperty_withProperty (field : ModelField) (decl other : PropertyDecl) :
    (field.withProperty decl).withProperty other = field.withProperty decl := by
  rw [withProperty, if_pos (field.isSome_property?_withProperty decl)]

end ModelField

/-- The names after a declared property was given to its field. -/
theorem memberNames_addProperty (fields : List (String × ModelField)) (decl : PropertyDecl) :
    memberNames (addProperty fields decl) =
      match decl.name with
      | some name =>
          if name ∈ memberNames fields then memberNames fields else memberNames fields ++ [name]
      | none => memberNames fields := by
  rw [addProperty]
  cases decl.name with
  | none => rfl
  | some name => exact memberNames_putMember name _ fields

/-- The field that comes into being for a declared property. -/
def PropertyDecl.newField (decl : PropertyDecl) : ModelField where
  nullable := decl.attrs.nullable.getD false

/-- Reading a field after a declared property was given to its field. -/
theorem getMember?_addProperty (fields : List (String × ModelField)) (decl : PropertyDecl)
    (name : String) :
    getMember? name (addProperty fields decl) =
      if decl.name = some name then
        some (((getMember? name fields).getD decl.newField).withProperty decl)
      else getMember? name fields := by
  rw [addProperty]
  cases decl.name with
  | none => rfl
  | some own =>
      dsimp only
      rw [getMember?_putMember]
      by_cases h : own = name
      · rw [if_pos h.symm, if_pos (congrArg some h), h]
        rfl
      · rw [if_neg (Ne.symm h), if_neg (fun heq => h (Option.some.inj heq))]

/-- Reading a field after declared properties were given to their fields: the first of the name
counts. -/
theorem getMember?_foldl_addProperty (decls : List PropertyDecl)
    (fields : List (String × ModelField)) (name : String) :
    getMember? name (decls.foldl addProperty fields) =
      match decls.find? fun decl => decl.name = some name with
      | some decl => some (((getMember? name fields).getD decl.newField).withProperty decl)
      | none => getMember? name fields := by
  induction decls generalizing fields with
  | nil => rfl
  | cons decl rest ih =>
      rw [List.foldl_cons, ih, getMember?_addProperty]
      by_cases h : decl.name = some name
      · -- the field has a property now, so a later one is not taken
        rw [if_pos h, List.find?_cons_of_pos (by simpa using h)]
        cases rest.find? fun decl => decl.name = some name with
        | none => rfl
        | some other =>
            dsimp only
            rw [Option.getD_some, ModelField.withProperty_withProperty]
      · rw [if_neg h, List.find?_cons_of_neg (by simpa using h)]

/-- Reading a cast after the hints of fields were added: the first hint of the name counts where
there is no cast. -/
theorem getMember?_foldl_addHint (named : List NamedField) (casts : List (String × String))
    (name : String) :
    getMember? name (named.foldl NamedField.addHint casts) =
      (getMember? name casts <|>
        (named.filter fun f => f.name = name).findSome? fun f => f.type.castHint?) := by
  induction named generalizing casts with
  | nil => simp
  | cons f rest ih =>
      rw [List.foldl_cons, ih, NamedField.addHint, List.filter_cons]
      cases hhint : f.type.castHint? with
      | none =>
          by_cases h : f.name = name
          · simp [h, hhint]
          · simp [h]
      | some hint =>
          dsimp only
          rw [getMember?_addMember]
          by_cases h : f.name = name
          · cases getMember? name casts <;> simp [h, hhint]
          · simp [h, Ne.symm h]

/-! ## The fields of a model -/

namespace Source.TypeEntry

/-- The fields that the struct itself brings along. -/
def structFields (entry : TypeEntry) : List (String × ModelField) :=
  putMembers (entry.shownNamed.map fun f => (f.name, f.modelField)) []

/-- The fields of the struct and those that its declaration of storage names. -/
def storedFields (entry : TypeEntry) : List (String × ModelField) :=
  (entry.storage.fillable ++ memberNames entry.storage.casts).foldl
    (fun fields name => addMember name {} fields) entry.structFields

/-- The fields from all four places, before any name is left out. -/
def allFields (entry : TypeEntry) : List (String × ModelField) :=
  entry.declaredProperties.foldl addProperty entry.storedFields

variable {entry : TypeEntry} {config : Config} {name : String}

/-- The names from all four places, in the order of first occurrence. -/
theorem memberNames_allFields (entry : TypeEntry) :
    memberNames entry.allFields = entry.fieldSources.eraseDups := by
  have hstruct : memberNames entry.structFields =
      (entry.shownFields.filterMap Field.apiName?).eraseDups := by
    rw [← map_name_shownNamed]
    show memberNames (collectMembers _) = _
    rw [memberNames_collectMembers, memberNames, List.map_map]
    rfl
  have hstored : memberNames entry.storedFields =
      (entry.shownFields.filterMap Field.apiName? ++ entry.storage.fillable ++
        memberNames entry.storage.casts).eraseDups := by
    rw [List.append_assoc, ← List.filterMap_some
      (l := entry.storage.fillable ++ memberNames entry.storage.casts)]
    exact memberNames_foldl (fun fields name => memberNames_addMember name {} fields) hstruct _
  exact memberNames_foldl memberNames_addProperty hstored entry.declaredProperties

/-- No two fields have one name. -/
theorem nodup_allFields (entry : TypeEntry) : (memberNames entry.allFields).Nodup :=
  entry.memberNames_allFields ▸ nodup_eraseDups _

/-- The fields of a model are those from all four places whose names are not hidden. -/
theorem fields_ofEntry (config : Config) (entry : TypeEntry) :
    (Model.ofEntry config entry).fields =
      entry.allFields.filter fun field => ¬ entry.Hides config field.1 := by
  have hshown : ∀ name, decide (¬ entry.Hides config name) =
      (!(entry.storage.hidden.contains name && !config.includesHidden) &&
        !(entry.hiddenNamed.map NamedField.name).contains name) := by
    intro name
    rw [Bool.eq_iff_iff, decide_eq_true_iff, Hides, ← mem_map_name_hiddenNamed_iff, not_or,
      and_comm]
    simp only [Bool.and_eq_true, Bool.not_eq_true', Bool.eq_false_iff, ne_eq, List.contains_iff_mem]
  simp only [hshown]
  rfl

/-- The names of a model's fields are those from the four places that are not hidden. -/
theorem mem_memberNames_fields_iff :
    name ∈ memberNames (Model.ofEntry config entry).fields ↔
      name ∈ entry.fieldSources ∧ ¬ entry.Hides config name := by
  rw [fields_ofEntry, ← List.mem_eraseDups (l := entry.fieldSources), ← memberNames_allFields,
    memberNames, memberNames, List.mem_map, List.mem_map]
  simp only [List.mem_filter, decide_eq_true_iff]
  constructor
  · rintro ⟨field, ⟨hfield, hshown⟩, rfl⟩
    exact ⟨⟨field, hfield, rfl⟩, hshown⟩
  · rintro ⟨⟨field, hfield, rfl⟩, hshown⟩
    exact ⟨field, ⟨hfield, hshown⟩, rfl⟩

/-- What the struct itself knows of a field: the last shown field of the name. -/
theorem getMember?_structFields (entry : TypeEntry) (name : String) :
    getMember? name entry.structFields =
      (entry.fieldsNamed name).getLast?.map fun field => (field.named name).modelField := by
  show getMember? name (collectMembers _) = _
  rw [getMember?_collectMembers, List.filter_map]
  show Option.map Prod.snd (List.map _ (entry.shownNamed.filter fun f => f.name = name)).getLast? = _
  rw [filter_shownNamed, List.map_map, List.getLast?_map, Option.map_map]
  rfl

/-- Before the declared properties, a field has the annotations that it brings along, and a field
that comes into being has none. -/
theorem annotations_storedFields (entry : TypeEntry) (name : String) (new : ModelField)
    (hnew : new.annotations = []) :
    ((getMember? name entry.storedFields).getD new).annotations = entry.ownAnnotations name := by
  rw [storedFields, getMember?_foldl_addMember, getMember?_structFields, ownAnnotations]
  cases (entry.fieldsNamed name).getLast? with
  | some field => rfl
  | none =>
      cases (entry.storage.fillable ++ memberNames entry.storage.casts).find? fun b => b = name with
      | some _ => rfl
      | none => exact hnew

/-- A field has the annotations that it brings along and the one that is attached. -/
theorem annotations_allFields {field : ModelField}
    (h : getMember? name entry.allFields = some field) :
    field.annotations = entry.ownAnnotations name ++ entry.attached name := by
  rw [allFields, getMember?_foldl_addProperty] at h
  rw [attached]
  cases hfind : entry.declaredProperties.find? fun decl => decl.name = some name with
  | none =>
      rw [hfind] at h
      have hown := entry.annotations_storedFields name {} rfl
      dsimp only at h
      rw [h] at hown
      rw [Option.map_none, Option.toList_none, ite_self, List.append_nil]
      exact hown
  | some decl =>
      rw [hfind] at h
      have hown := entry.annotations_storedFields name decl.newField rfl
      rw [← Option.some.inj h, ModelField.withProperty, hown]
      split
      · rw [List.append_nil]
        exact hown
      · rw [← hown]
        rfl

end Source.TypeEntry

namespace Model

/-- The fields of a model are those from all four places that are not hidden, with the casts and
annotations that belong to them. -/
theorem listsFields_ofEntry (config : Config) (entry : TypeEntry) :
    (Model.ofEntry config entry).ListsFields config entry where
  names := by
    have hnames : memberNames (Model.ofEntry config entry).fields =
        (entry.fieldSources.filter fun name => ¬ entry.Hides config name).eraseDups := by
      rw [TypeEntry.fields_ofEntry, eraseDups_filter, ← entry.memberNames_allFields, memberNames,
        memberNames, List.filter_map]
      rfl
    rw [hnames]
    exact firstSeen_eraseDups _
  casts name := by
    show getMember? name (entry.shownNamed.foldl NamedField.addHint entry.storage.casts) = _
    rw [getMember?_foldl_addHint, TypeEntry.filter_shownNamed, List.findSome?_map]
    rfl
  annotations := by
    rintro ⟨name, field⟩ hfield
    rw [TypeEntry.fields_ofEntry] at hfield
    exact TypeEntry.annotations_allFields
      ((getMember?_eq_some_iff entry.nodup_allFields).mpr (List.mem_of_mem_filter hfield))

end Model

end AnnotatedApi
