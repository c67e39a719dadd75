import AnnotatedApi.Proofs.Schema.Declarations
import AnnotatedApi.Proofs.Schema.Reference

/-! # The fragments of fields

A field is described by its reference, else by its relationship, else by a schema in place. That
schema starts from what is known of the field without an annotation, its cast and its type, and a
declared property is laid over it. Two things that hold of a property declared on its own are lost
on this way: what is nested in a property without a type, as the cast has given a type already, and
the null that the type of the field allows, as only a field without a declared property is asked for
it. The main statements say exactly when that happens. -/

namespace AnnotatedApi

variable {names : ModelNames}

/-! ## Conventional names -/

/-- A name that forces the type of its field: `id`, one that ends with `_at`, and one that ends with
`_id` after something else. -/
def IsConventional (name : String) : Prop :=
  name = "id" ∨ (∃ relation ≠ [], name.toList = relation ++ "_id".toList) ∨
    "_at".toList <:+ name.toList

/-- The type that a conventional name forces is that of a number or a text. -/
theorem type_of_conventionalSchema? {name : String} {forced : Schema}
    (h : conventionalSchema? name = some forced) :
    forced.type = some "integer" ∨ forced.type = some "string" := by
  rw [conventionalSchema?] at h
  split at h
  · rw [← Option.some.inj h]
    exact .inl rfl
  · split at h
    · rw [← Option.some.inj h]
      exact .inr rfl
    · split at h
      · rw [← Option.some.inj h]
        exact .inl rfl
      · split at h
        · rw [← Option.some.inj h]
          exact .inr rfl
        · exact absurd h (Option.some_ne_none _).symm

/-- A type is forced exactly by the conventional names. -/
theorem conventionalSchema?_eq_none_iff {name : String} :
    conventionalSchema? name = none ↔ ¬ IsConventional name := by
  -- a suffix is taken off, so what is asked for is what stands in front of it
  have hid : (∃ relation ≠ [], name.toList = relation ++ "_id".toList) ↔
      ∃ c rest, Text.stripBack? "_id".toList name.toList = some (c :: rest) := by
    simp only [Text.stripBack?_eq_some_iff]
    constructor
    · rintro ⟨_ | ⟨c, rest⟩, hne, hname⟩
      · exact absurd rfl hne
      · exact ⟨c, rest, hname⟩
    · rintro ⟨c, rest, hname⟩
      exact ⟨c :: rest, List.cons_ne_nil c rest, hname⟩
  rw [IsConventional, hid, ← Text.endsWith_iff, conventionalSchema?]
  simp only [beq_iff_eq, Bool.or_eq_true]
  split
  · next heq => exact iff_of_false (Option.some_ne_none _) (not_not_intro (.inl heq))
  · next hne =>
    split
    · next hstamp =>
      -- both time stamps end with `_at`
      have hends : Text.endsWith name "_at" = true := by
        rcases hstamp with rfl | rfl <;> rfl
      exact iff_of_false (Option.some_ne_none _) (not_not_intro (.inr (.inr hends)))
    · split
      · next c rest hrest =>
        exact iff_of_false (Option.some_ne_none _) (not_not_intro (.inr (.inl ⟨c, rest, hrest⟩)))
      · next hnone =>
        split
        · next hends =>
          exact iff_of_false (Option.some_ne_none _) (not_not_intro (.inr (.inr hends)))
        · next hends =>
          refine iff_of_true rfl ?_
          rintro (heq | ⟨c, rest, hrest⟩ | h)
          · exact hne heq
          · exact hnone c rest hrest
          · exact hends h

/-- Other names leave a schema as it is. -/
theorem Schema.withConvention_of_not_isConventional {name : String} (h : ¬ IsConventional name)
    (schema : Schema) : schema.withConvention name = schema := by
  rw [withConvention, conventionalSchema?_eq_none_iff.mpr h]

/-- No name says whether values may be null. -/
@[simp] theorem Schema.nullable_withConvention (name : String) (schema : Schema) :
    (schema.withConvention name).nullable = schema.nullable := by
  rw [withConvention]
  split <;> rfl

/-! ## Shapes -/

namespace Schema

@[simp] theorem type_overlay (attrs : SchemaAttrs) (schema : Schema) :
    (schema.overlay attrs).type = (attrs.type <|> schema.type) := rfl

@[simp] theorem nullable_overlay (attrs : SchemaAttrs) (schema : Schema) :
    (schema.overlay attrs).nullable = (attrs.nullable <|> schema.nullable) := rfl

/-- Elements and properties are added without a change of the type. -/
@[simp] theorem type_withNested (items : Option Fragment) (properties : List BuiltProperty)
    (schema : Schema) : (schema.withNested items properties).type = schema.type := by
  rw [withNested]
  split
  · rfl
  · split <;> rfl
  · rfl

/-- The type of a shaped schema is its own, else the one that is needed. -/
theorem type_shape (items : Option Fragment) (properties : List BuiltProperty)
    (fallback : Option String) (schema : Schema) :
    (schema.shape items properties fallback).type =
      (schema.type <|>
        if items.isSome then some "array" else if !properties.isEmpty then some "object"
        else fallback) := by
  rw [shape, type_withNested]
  rfl

/-- Nothing says on the way whether values may be null. -/
@[simp] theorem nullable_shape (items : Option Fragment) (properties : List BuiltProperty)
    (fallback : Option String) (schema : Schema) :
    (schema.shape items properties fallback).nullable = schema.nullable := by
  rw [shape, withNested]
  split
  · rfl
  · split <;> rfl
  · rfl

/-- A schema with a type other than those of arrays and objects has its shape. -/
theorem shape_of_type {schema : Schema} {type : String} (h : schema.type = some type)
    (harray : type ≠ "array") (hobject : type ≠ "object") (items : Option Fragment)
    (properties : List BuiltProperty) (fallback : Option String) :
    schema.shape items properties fallback = schema := by
  have htyped : schema.withDefaultType items properties fallback = schema := by
    cases schema
    dsimp only at h
    rw [withDefaultType, h]
    rfl
  rw [shape, htyped, withNested]
  split
  · next heq => exact absurd (Option.some.inj (h.symm.trans heq)) harray
  · next heq => exact absurd (Option.some.inj (h.symm.trans heq)) hobject
  · rfl

/-- Every cast has a type. -/
theorem exists_type_ofCast (cast : Option String) :
    ∃ type, (Schema.ofCast cast).type = some type := by
  refine ofCast_induction (P := fun schema => ∃ type, schema.type = some type) ?_ cast
  intro family
  cases family <;> exact ⟨_, rfl⟩

/-- Nothing is known of null from a cast. -/
@[simp] theorem nullable_ofCast (cast : Option String) : (Schema.ofCast cast).nullable = none := by
  refine ofCast_induction (P := fun schema => schema.nullable = none) ?_ cast
  intro family
  cases family <;> rfl

end Schema

/-! ## Where a fragment comes from -/

namespace ModelField

/-- The reference that the property of a field declares. -/
def reference? (field : ModelField) : Option String :=
  field.annotations.property?.bind fun decl => decl.attrs.reference

variable {field : ModelField}

/-- A reference is the fragment of its field. -/
theorem fst_fragment_of_reference {fragment : Fragment}
    (h : names.optionalFragment? field.reference? = some fragment) (name : String)
    (cast : Option String) : (field.fragment names name cast).1 = fragment := by
  rw [reference?] at h
  rw [ModelField.fragment, h]

/-- Without a reference, a relationship gives the fragment of its field. -/
theorem fst_fragment_of_relationship {relationship : RelationshipDecl}
    (h : RefersToNothing field.reference?)
    (hrelated : field.annotations.relationship? = some relationship) (name : String)
    (cast : Option String) :
    (field.fragment names name cast).1 = relationship.fragment names := by
  have hnone : names.optionalFragment? field.reference? = none :=
    ModelNames.optionalFragment?_eq_none_iff.mpr h
  rw [reference?] at hnone
  rw [ModelField.fragment, hnone, hrelated]

/-- Without a reference and a relationship, a field has a schema in place. -/
theorem fst_fragment_eq_inline (h : RefersToNothing field.reference?)
    (hunrelated : field.annotations.relationship? = none) (name : String) (cast : Option String) :
    (field.fragment names name cast).1 = .inline (field.inlineSchema names name cast) := by
  have hnone : names.optionalFragment? field.reference? = none :=
    ModelNames.optionalFragment?_eq_none_iff.mpr h
  rw [reference?] at hnone
  rw [ModelField.fragment, hnone, hunrelated]

/-- The schema that a declared property is laid over: of its cast, unless the type is declared. -/
def base (decl : PropertyDecl) (cast : Option String) : Schema :=
  if decl.attrs.type.isSome then {} else .ofCast cast

/-- A declared property, laid over the base and shaped by what is nested in it. -/
def declaredSchema (field : ModelField) (names : ModelNames) (decl : PropertyDecl)
    (cast : Option String) : Schema :=
  ((base decl cast).overlay decl.attrs).shape
    (fragmentOfItems names (decl.items <|> field.annotations.items?))
    (builtProperties names decl.properties) (some "string")

/-- Where no type is declared, the cast gives one. -/
theorem type_declaredSchema (field : ModelField) (names : ModelNames) (decl : PropertyDecl)
    (cast : Option String) :
    (field.declaredSchema names decl cast).type =
      (decl.attrs.type <|> (Schema.ofCast cast).type) := by
  rw [declaredSchema, Schema.type_shape, Schema.type_overlay, base]
  cases decl.attrs.type with
  | some type => rfl
  | none =>
      obtain ⟨type, htype⟩ := Schema.exists_type_ofCast cast
      rw [if_neg (by decide), htype]
      rfl

/-- A field with a declared property has its schema, up to what the name forces. -/
theorem inlineSchema_of_property {decl : PropertyDecl}
    (h : field.annotations.property? = some decl) (name : String) (cast : Option String) :
    field.inlineSchema names name cast =
      (field.declaredSchema names decl cast).withConvention name := by
  rw [inlineSchema, h]
  rfl

end ModelField

/-! ## A property of a field and a property on its own -/

namespace PropertyDecl

variable {decl : PropertyDecl}

/-- On its own, a property without a reference is a schema in place. -/
theorem fragment_eq_inline (h : RefersToNothing decl.attrs.reference) :
    decl.fragment names =
      .inline ((Schema.overlay decl.attrs {}).shape (fragmentOfItems names decl.items)
        (builtProperties names decl.properties) (some "string")) := by
  rw [fragment_eq, ModelNames.optionalFragment?_eq_none_iff.mpr h]

/-- A property in place that has elements or properties and leaves the type to them. -/
structure NestsUntyped (decl : PropertyDecl) : Prop where
  /-- The property is no reference. -/
  inPlace : RefersToNothing decl.attrs.reference
  /-- The type is not declared. -/
  untyped : decl.attrs.type = none
  /-- Something is nested in the property. -/
  nests : decl.items.isSome = true ∨ decl.properties ≠ []

/-- On its own, a property that leaves the type to what is nested in it is an array or an object. -/
theorem NestsUntyped.isNested_fragment (h : decl.NestsUntyped) :
    (decl.fragment names).isNested = true := by
  rw [fragment_eq_inline h.inPlace, Fragment.isNested, Schema.isNested, Schema.type_shape,
    Schema.type_overlay, h.untyped, isSome_fragmentOfItems, builtProperties_eq_map,
    List.isEmpty_map]
  cases hitems : decl.items.isSome with
  | true => rfl
  | false =>
      have hproperties : decl.properties ≠ [] := by
        refine h.nests.resolve_left ?_
        rw [hitems]
        exact Bool.false_ne_true
      rw [List.isEmpty_eq_false_iff.mpr hproperties]
      rfl

/-- On its own, a property that declares neither a type nor anything nested is a text. -/
theorem fragment_of_flat (h : RefersToNothing decl.attrs.reference) (htype : decl.attrs.type = none)
    (hitems : decl.items = none) (hproperties : decl.properties = []) :
    decl.fragment names = .inline ((Schema.typed "string").overlay decl.attrs) := by
  have htyped : (Schema.overlay decl.attrs {}).withDefaultType none [] (some "string") =
      (Schema.typed "string").overlay decl.attrs := by
    rw [Schema.withDefaultType, Schema.overlay, Schema.overlay, htype]
    rfl
  rw [fragment_eq_inline h, hitems, hproperties, fragmentOfItems, builtProperties, Schema.shape,
    htyped, Schema.withNested, Schema.overlay, htype]
  rfl

end PropertyDecl

namespace ModelField

/-- A field of which nothing is known but a declared property, and perhaps its type. -/
def ofProperty (decl : PropertyDecl) (typeName : Option String) : ModelField where
  annotations := [.property decl]
  typeName

variable {decl : PropertyDecl} {typeName : Option String} {name : String}

/-- Without a conventional name and a cast, a declared property in place is laid over its base. -/
theorem fst_fragment_ofProperty (h : ¬ IsConventional name)
    (hplace : RefersToNothing decl.attrs.reference) :
    ((ofProperty decl typeName).fragment names name none).1 =
      .inline (((base decl none).overlay decl.attrs).shape (fragmentOfItems names decl.items)
        (builtProperties names decl.properties) (some "string")) := by
  have hfield : RefersToNothing (ofProperty decl typeName).reference? := hplace
  have hproperty : (ofProperty decl typeName).annotations.property? = some decl := rfl
  have hitems : (decl.items <|> (ofProperty decl typeName).annotations.items?) = decl.items := by
    cases decl.items <;> rfl
  rw [fst_fragment_eq_inline hfield rfl, inlineSchema_of_property hproperty,
    Schema.withConvention_of_not_isConventional h, declaredSchema, hitems]

/-- Where the type is not declared, such a property is a text, whatever is nested in it. -/
theorem fst_fragment_ofProperty_of_untyped (h : ¬ IsConventional name)
    (hplace : RefersToNothing decl.attrs.reference) (htype : decl.attrs.type = none) :
    ((ofProperty decl typeName).fragment names name none).1 =
      .inline ((Schema.typed "string").overlay decl.attrs) := by
  have hbase : base decl none = .typed "string" := by
    rw [base, htype]
    rfl
  have hoverlay : ((Schema.typed "string").overlay decl.attrs).type = some "string" := by
    rw [Schema.type_overlay, htype]
    rfl
  rw [fst_fragment_ofProperty h hplace, hbase,
    Schema.shape_of_type hoverlay (by decide) (by decide)]

/-- A property of a field is what it would be on its own, unless it leaves its type to what is
nested in it. On its own it is then an array or an object; on the field it is a text, and what is
nested in it is lost. -/
theorem fragment_ofProperty_eq_fragment_iff (decl : PropertyDecl) (typeName : Option String)
    {name : String} (h : ¬ IsConventional name) :
    (((ofProperty decl typeName).fragment names name none).1 = decl.fragment names ↔
        ¬ decl.NestsUntyped) ∧
      (decl.NestsUntyped →
        ((ofProperty decl typeName).fragment names name none).1 =
            .inline ((Schema.typed "string").overlay decl.attrs) ∧
          (decl.fragment names).isNested = true) := by
  have hlost : decl.NestsUntyped →
      ((ofProperty decl typeName).fragment names name none).1 =
          .inline ((Schema.typed "string").overlay decl.attrs) ∧
        (decl.fragment names).isNested = true := fun hnests =>
    ⟨fst_fragment_ofProperty_of_untyped h hnests.inPlace hnests.untyped, hnests.isNested_fragment⟩
  refine ⟨⟨?_, ?_⟩, hlost⟩
  · -- a text is neither an array nor an object
    intro heq hnests
    obtain ⟨htext, hnested⟩ := hlost hnests
    rw [← heq, htext, Fragment.isNested, Schema.isNested, Schema.type_overlay,
      hnests.untyped] at hnested
    exact absurd hnested (by decide)
  · intro hnot
    by_cases hplace : RefersToNothing decl.attrs.reference
    · cases htype : decl.attrs.type with
      | some type =>
          -- the declared type leaves nothing of the cast
          rw [fst_fragment_ofProperty h hplace, PropertyDecl.fragment_eq_inline hplace, base, htype]
          rfl
      | none =>
          -- nothing is nested, so on its own the property takes the default type, a text as well
          have hflat : decl.items = none ∧ decl.properties = [] := by
            constructor
            · by_contra hitems
              exact hnot ⟨hplace, htype, .inl (Option.isSome_iff_ne_none.mpr hitems)⟩
            · by_contra hproperties
              exact hnot ⟨hplace, htype, .inr hproperties⟩
          rw [fst_fragment_ofProperty_of_untyped h hplace htype,
            PropertyDecl.fragment_of_flat hplace htype hflat.1 hflat.2]
    · obtain ⟨fragment, hfragment⟩ := names.exists_optionalFragment? hplace
      have hfield : names.optionalFragment? (ofProperty decl typeName).reference? =
          some fragment := hfragment
      rw [fst_fragment_of_reference hfield, PropertyDecl.fragment_eq, hfragment]

/-- A list of labels, declared by its elements alone. -/
def labelsProperty : PropertyDecl :=
  .mk none {} none (some (.mk { type := some "string" } none [])) []

/-- A list of labels, declared as an array. -/
def typedLabelsProperty : PropertyDecl :=
  .mk none { type := some "array" } none (some (.mk { type := some "string" } none [])) []

/-- With a type, the labels of a field are the array that they are on their own. -/
theorem fragment_ofProperty_typedLabels :
    ¬ IsConventional "labels" ∧ ¬ typedLabelsProperty.NestsUntyped ∧
      ((ofProperty typedLabelsProperty none).fragment {} "labels" none).1 =
        typedLabelsProperty.fragment {} := by
  have hname : ¬ IsConventional "labels" := conventionalSchema?_eq_none_iff.mp rfl
  have hnot : ¬ typedLabelsProperty.NestsUntyped := fun h =>
    absurd h.untyped (Option.some_ne_none "array")
  exact ⟨hname, hnot, (fragment_ofProperty_eq_fragment_iff _ none hname).1.mpr hnot⟩

/-- Without a type, the labels are an array on their own and a text on a field. -/
theorem fragment_ofProperty_labels_ne :
    ¬ IsConventional "labels" ∧
      labelsProperty.fragment {} = .inline (.arrayOf (.inline (.typed "string"))) ∧
      ((ofProperty labelsProperty none).fragment {} "labels" none).1 =
        .inline (.typed "string") :=
  ⟨conventionalSchema?_eq_none_iff.mp rfl, rfl, rfl⟩

end ModelField

/-! ## Null -/

namespace ModelField

variable {field : ModelField}

/-- A schema in place says about null what the declared property says, or what the type of the field
does if there is no such property. -/
theorem nullable_inlineSchema (field : ModelField) (name : String) (cast : Option String) :
    (field.inlineSchema names name cast).nullable =
      match field.annotations.property? with
      | some decl => decl.attrs.nullable
      | none => if field.nullable then some true else none := by
  cases hproperty : field.annotations.property? with
  | some decl =>
      have hbase : (base decl cast).nullable = none := by
        rw [base]
        split
        · rfl
        · exact Schema.nullable_ofCast cast
      rw [inlineSchema_of_property hproperty, Schema.nullable_withConvention, declaredSchema,
        Schema.nullable_shape, Schema.nullable_overlay, hbase, Option.orElse_eq_orElse,
        Option.orElse_eq_or, Option.or_none]
  | none =>
      rw [inlineSchema, hproperty]
      dsimp only
      rw [Schema.nullable_withConvention, Schema.nullable_ofCast]

/-- The schema in place of a field allows null exactly if the field does, unless the field leaves it
to its type and has a declared property. -/
theorem nullable_fragment_iff (h : RefersToNothing field.reference?)
    (hunrelated : field.annotations.relationship? = none) (names : ModelNames) (name : String)
    (cast : Option String) :
    ∃ schema, (field.fragment names name cast).1 = .inline schema ∧
      (schema.nullable = some true ↔
        field.isNullable = true ∧
          ∀ decl ∈ field.annotations.property?, decl.attrs.nullable.isSome = true) := by
  refine ⟨_, fst_fragment_eq_inline h hunrelated name cast, ?_⟩
  rw [nullable_inlineSchema, isNullable]
  cases field.annotations.property? with
  | none => simp
  | some decl =>
      cases hnullable : decl.attrs.nullable with
      | none => simp [hnullable]
      | some nullable => simp [hnullable]

/-- A date that may be null as declared. -/
def clearableDate : ModelField where
  annotations := [.property (.mk none { nullable := some true } none none [])]

/-- The schema of a date that is declared to allow null does so. -/
theorem nullable_fragment_clearableDate :
    RefersToNothing clearableDate.reference? ∧ clearableDate.annotations.relationship? = none ∧
      ∃ schema, (clearableDate.fragment {} "due_date" (some "date")).1 = .inline schema ∧
        schema.nullable = some true := by
  have hplace : RefersToNothing clearableDate.reference? :=
    fun text htext => absurd htext (Option.not_mem_none text)
  obtain ⟨schema, hschema, hnullable⟩ :=
    nullable_fragment_iff hplace rfl {} "due_date" (some "date")
  refine ⟨hplace, rfl, schema, hschema, hnullable.mpr ⟨rfl, ?_⟩⟩
  intro decl hdecl
  rw [← Option.mem_some_iff.mp hdecl]
  rfl

/-- A date that may be null by its type, and is described. -/
def describedDate : ModelField where
  annotations := [.property (.mk none { description := some "When it is due" } none none [])]
  nullable := true

/-- The description of a date takes away that it may be null. -/
theorem nullable_fragment_describedDate :
    RefersToNothing describedDate.reference? ∧ describedDate.annotations.relationship? = none ∧
      describedDate.isNullable = true ∧
        ∃ schema, (describedDate.fragment {} "due_date" (some "date")).1 = .inline schema ∧
          schema.nullable = none :=
  ⟨fun text htext => absurd htext (Option.not_mem_none text), rfl, rfl, _, rfl, rfl⟩

end ModelField

end AnnotatedApi
