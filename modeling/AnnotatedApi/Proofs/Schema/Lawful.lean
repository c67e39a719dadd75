import AnnotatedApi.Proofs.Annotation.Lawful
import AnnotatedApi.Proofs.Schema.Declarations
import Mathlib.Data.Option.Basic

/-! # What is constructed is lawful

Each step of a schema's construction keeps lawful what was lawful: properties are set by their
names, and JSON values come from declarations only. By induction over declarations, the fragment of
a lawful declaration is lawful at any depth, and so are the fragments of relationships, fields and
models. -/

namespace AnnotatedApi

variable {names : ModelNames}

/-! ## Small schemas -/

namespace Schema

variable {allowed : Json → Prop} {schema : Schema}

/-- Only the keywords that hold JSON values matter. -/
theorem LawfulKeywords.of_eq (h : schema.LawfulKeywords allowed) {other : Schema}
    (henum : other.enum = schema.enum) (hdefault : other.default = schema.default)
    (hexample : other.exampleValue = schema.exampleValue)
    (hexamples : other.examples = schema.examples) : other.LawfulKeywords allowed where
  enum := henum ▸ h.enum
  default := hdefault ▸ h.default
  exampleValue := hexample ▸ h.exampleValue
  examples := hexamples ▸ h.examples

/-- No keywords, which are lawful. -/
theorem lawfulKeywords_empty : ({} : Schema).LawfulKeywords allowed :=
  ⟨forall_mem_none, forall_mem_none, forall_mem_none, forall_mem_none⟩

/-- A schema without JSON values, elements and properties is lawful. -/
theorem lawful_of_flat (henum : schema.enum = none) (hdefault : schema.default = none)
    (hexample : schema.exampleValue = none) (hexamples : schema.examples = none)
    (hitems : schema.items = none) (hproperties : schema.properties = []) :
    schema.Lawful allowed where
  keywords := lawfulKeywords_empty.of_eq henum hdefault hexample hexamples
  items := hitems ▸ forall_mem_none
  properties := hproperties ▸ .empty

/-- The schema that says nothing is lawful. -/
theorem lawful_empty : ({} : Schema).Lawful allowed :=
  lawful_of_flat rfl rfl rfl rfl rfl rfl

/-- A schema that only has a type is lawful. -/
theorem lawful_typed (type : String) : (typed type).Lawful allowed :=
  lawful_of_flat rfl rfl rfl rfl rfl rfl

/-- An array of lawful elements is lawful. -/
theorem lawful_arrayOf {items : Fragment} (h : items.Lawful allowed) :
    (arrayOf items).Lawful allowed where
  keywords := lawfulKeywords_empty.of_eq rfl rfl rfl rfl
  items := forall_mem_some h
  properties := .empty

/-- Only JSON values, elements and properties matter. -/
theorem Lawful.of_eq (h : schema.Lawful allowed) {other : Schema}
    (henum : other.enum = schema.enum) (hdefault : other.default = schema.default)
    (hexample : other.exampleValue = schema.exampleValue)
    (hexamples : other.examples = schema.examples) (hitems : other.items = schema.items)
    (hproperties : other.properties = schema.properties) : other.Lawful allowed where
  keywords := h.keywords.of_eq henum hdefault hexample hexamples
  items := hitems ▸ h.items
  properties := hproperties ▸ h.properties

end Schema

/-- The fragment that a reference stands for is lawful. -/
theorem ModelNames.lawful_of_fragment? {allowed : Json → Prop} {reference : String}
    {fragment : Fragment} (h : names.fragment? reference = some fragment) :
    fragment.Lawful allowed := by
  obtain ⟨pointer, -, rfl⟩ := Option.map_eq_some_iff.mp h
  exact .ref pointer

/-- The fragment that an optional reference stands for is lawful. -/
theorem ModelNames.lawful_of_optionalFragment? {allowed : Json → Prop} {reference : Option String}
    {fragment : Fragment} (h : names.optionalFragment? reference = some fragment) :
    fragment.Lawful allowed := by
  obtain ⟨_, -, hfragment⟩ := Option.bind_eq_some_iff.mp h
  exact lawful_of_fragment? hfragment

/-! ## References that are resolved -/

namespace ModelNames

/-- The references within named fragments are resolved one by one. -/
theorem resolveFragments_eq_mapMembers (fragments : List (String × Fragment)) :
    names.resolveFragments fragments = mapMembers names.resolveFragment fragments := by
  induction fragments with
  | nil => rfl
  | cons entry rest ih =>
      obtain ⟨name, fragment⟩ := entry
      rw [resolveFragments, ih]
      rfl

/-- In a schema, the references of its elements and of its properties are resolved. -/
theorem resolveSchema_eq (schema : Schema) :
    names.resolveSchema schema =
      { schema with
        items := schema.items.map names.resolveFragment
        properties := mapMembers names.resolveFragment schema.properties } := by
  obtain ⟨_, _, _, _, _, _, items, _⟩ := schema
  rw [resolveSchema.eq_def]
  cases items <;> simp only [resolveFragments_eq_mapMembers, Option.map_none, Option.map_some]

end ModelNames

/-- A lawful fragment is lawful with its references resolved. -/
theorem Fragment.Lawful.resolve {allowed : Json → Prop} {fragment : Fragment}
    (h : fragment.Lawful allowed) : (names.resolveFragment fragment).Lawful allowed := by
  induction h with
  | ref pointer =>
      rw [ModelNames.resolveFragment]
      -- a reference that cannot be resolved becomes an object in place
      split
      · exact .ref _
      · exact Fragment.lawful_inline_iff.mpr (Schema.lawful_typed _)
  | inline keywords _ nodup _ ihItems ihProperties =>
      rw [ModelNames.resolveFragment, ModelNames.resolveSchema_eq, Fragment.lawful_inline_iff]
      exact ⟨keywords.of_eq rfl rfl rfl rfl, Option.forall_mem_map.mpr ihItems,
        .mapMembers nodup ihProperties⟩

/-! ## Steps of a construction -/

namespace Schema.Lawful

variable {schema : Schema} (h : schema.Lawful (· ≠ .null))
include h

/-- Lawful attributes replace JSON values by lawful ones. -/
theorem overlay {attrs : SchemaAttrs} (hattrs : attrs.Lawful) :
    (schema.overlay attrs).Lawful (· ≠ .null) where
  keywords := {
    enum := forall_mem_orElse hattrs.enum h.keywords.enum
    default := forall_mem_orElse hattrs.default h.keywords.default
    exampleValue := forall_mem_orElse hattrs.exampleValue h.keywords.exampleValue
    examples := forall_mem_orElse hattrs.examples h.keywords.examples }
  items := h.items
  properties := h.properties

/-- Lawful elements and properties can be added. -/
theorem withNested {items : Option Fragment} {properties : List BuiltProperty}
    (hitems : LawfulOption (· ≠ .null) items)
    (hproperties : ∀ p ∈ properties, p.fragment.Lawful (· ≠ .null)) :
    (schema.withNested items properties).Lawful (· ≠ .null) := by
  rw [Schema.withNested]
  split
  · -- an array: declared elements, else those it has, else strings
    refine ⟨h.keywords.of_eq rfl rfl rfl rfl, ?_, h.properties⟩
    refine forall_mem_orElse hitems (forall_mem_orElse h.items (forall_mem_some ?_))
    exact Fragment.lawful_inline_iff.mpr (Schema.lawful_typed _)
  · split
    · exact h
    · exact ⟨h.keywords.of_eq rfl rfl rfl rfl, h.items,
        h.properties.putMembers (BuiltProperty.forall_mem_named hproperties)⟩
  · exact h

/-- Lawful elements and properties shape a schema. -/
theorem shape {items : Option Fragment} {properties : List BuiltProperty}
    (fallback : Option String) (hitems : LawfulOption (· ≠ .null) items)
    (hproperties : ∀ p ∈ properties, p.fragment.Lawful (· ≠ .null)) :
    (schema.shape items properties fallback).Lawful (· ≠ .null) := by
  have htyped : (schema.withDefaultType items properties fallback).Lawful (· ≠ .null) :=
    h.of_eq rfl rfl rfl rfl rfl rfl
  exact htyped.withNested hitems hproperties

/-- A conventional name only takes elements and properties away. -/
theorem withConvention (name : String) : (schema.withConvention name).Lawful (· ≠ .null) := by
  rw [Schema.withConvention]
  split
  · exact h
  · next forced _ =>
    have hitems : LawfulOption (· ≠ .null)
        (if forced.type == schema.type then schema.items else none) := by
      split
      · exact h.items
      · exact forall_mem_none
    have hproperties : LawfulMap (Fragment.Lawful (· ≠ .null))
        (if forced.type == schema.type then schema.properties else []) := by
      split
      · exact h.properties
      · exact .empty
    exact ⟨h.keywords.of_eq rfl rfl rfl rfl, hitems, hproperties⟩

end Schema.Lawful

/-- The schema of a cast is lawful. -/
theorem Schema.lawful_ofCast {allowed : Json → Prop} (cast : Option String) :
    (Schema.ofCast cast).Lawful allowed := by
  refine Schema.ofCast_induction (P := Schema.Lawful allowed) ?_ cast
  intro family
  cases family with
  | array =>
      exact Schema.lawful_arrayOf (Fragment.lawful_inline_iff.mpr (Schema.lawful_typed _))
  | _ => exact Schema.lawful_of_flat rfl rfl rfl rfl rfl rfl

/-! ## Declarations -/

mutual

/-- The fragment of lawful declared elements is lawful. -/
theorem ItemsDecl.Lawful.fragment : ∀ {decl : ItemsDecl}, decl.Lawful →
    (decl.fragment names).Lawful (· ≠ .null)
  | .mk attrs items properties, h => by
      cases h with
      | mk hattrs hitems hproperties =>
          rw [ItemsDecl.fragment]
          split
          · next fragment hfragment => exact ModelNames.lawful_of_optionalFragment? hfragment
          · rw [Fragment.lawful_inline_iff]
            exact (Schema.lawful_empty.overlay hattrs).shape none (lawful_fragmentOfItems hitems)
              (lawful_builtProperties hproperties)

/-- The fragment of a lawful declared property is lawful. -/
theorem PropertyDecl.Lawful.fragment : ∀ {decl : PropertyDecl}, decl.Lawful →
    (decl.fragment names).Lawful (· ≠ .null)
  | .mk _ attrs _ items properties, h => by
      cases h with
      | mk hattrs hitems hproperties =>
          rw [PropertyDecl.fragment]
          split
          · next fragment hfragment => exact ModelNames.lawful_of_optionalFragment? hfragment
          · rw [Fragment.lawful_inline_iff]
            exact (Schema.lawful_empty.overlay hattrs).shape (some "string")
              (lawful_fragmentOfItems hitems) (lawful_builtProperties hproperties)

/-- The fragment of lawful optional elements is lawful. -/
theorem lawful_fragmentOfItems : ∀ {items : Option ItemsDecl}, (∀ decl ∈ items, decl.Lawful) →
    LawfulOption (· ≠ .null) (fragmentOfItems names items)
  | none, _ => by
      rw [fragmentOfItems]
      exact forall_mem_none
  | some items, h => by
      rw [fragmentOfItems]
      exact forall_mem_some (ItemsDecl.Lawful.fragment (h items rfl))

/-- The fragments of lawful declared properties are lawful. -/
theorem lawful_builtProperties :
    ∀ {properties : List PropertyDecl}, (∀ decl ∈ properties, decl.Lawful) →
      ∀ p ∈ builtProperties names properties, p.fragment.Lawful (· ≠ .null)
  | [], _ => by
      rw [builtProperties]
      exact List.forall_mem_nil _
  | decl :: rest, h => by
      rw [List.forall_mem_cons] at h
      rw [builtProperties, List.forall_mem_cons]
      exact ⟨PropertyDecl.Lawful.fragment h.1, lawful_builtProperties h.2⟩

end

/-- The fragment of a lawful declared schema is lawful. -/
theorem SchemaDecl.Lawful.fragment {decl : SchemaDecl} (h : decl.Lawful) :
    (decl.fragment names).Lawful (· ≠ .null) := by
  -- a title and a list of required names change nothing that matters
  have htitled : ({ Schema.overlay decl.attrs {} with title := decl.title } : Schema).Lawful
      (· ≠ .null) := by
    have hoverlay : (Schema.overlay decl.attrs {}).Lawful (· ≠ .null) :=
      Schema.lawful_empty.overlay h.attrs
    exact hoverlay.of_eq rfl rfl rfl rfl rfl rfl
  have hitems : LawfulOption (· ≠ .null) (fragmentOfItems names decl.items) :=
    lawful_fragmentOfItems h.items
  have hproperties : ∀ p ∈ builtProperties names decl.properties, p.fragment.Lawful (· ≠ .null) :=
    lawful_builtProperties h.properties
  have hshaped := htitled.shape none hitems hproperties
  rw [SchemaDecl.fragment]
  split
  · next fragment hfragment => exact ModelNames.lawful_of_optionalFragment? hfragment
  · dsimp only
    split
    · exact Fragment.lawful_inline_iff.mpr (hshaped.of_eq rfl rfl rfl rfl rfl rfl)
    · exact Fragment.lawful_inline_iff.mpr hshaped

/-- An object of lawful declared properties is lawful. -/
theorem lawful_objectOfProperties {properties : List PropertyDecl}
    (h : ∀ decl ∈ properties, decl.Lawful) :
    (objectOfProperties names properties).Lawful (· ≠ .null) := by
  rw [objectOfProperties, Fragment.lawful_inline_iff]
  exact (Schema.lawful_typed _).shape none forall_mem_none (lawful_builtProperties h)

/-- The fragment of a relationship is lawful. -/
theorem RelationshipDecl.lawful_fragment (decl : RelationshipDecl) :
    (decl.fragment names).Lawful (· ≠ .null) := by
  refine RelationshipDecl.fragment_induction (P := Fragment.Lawful (· ≠ .null)) ?_ ?_ ?_ decl
  · exact ModelNames.lawful_of_fragment?
  · exact Fragment.lawful_inline_iff.mpr (Schema.lawful_typed _)
  · intro _ target htarget
    refine Fragment.lawful_inline_iff.mpr ?_
    exact (Schema.lawful_arrayOf htarget).of_eq rfl rfl rfl rfl rfl rfl

/-! ## Fields and models -/

/-- A field whose annotations are lawful. -/
def ModelField.Lawful (field : ModelField) : Prop :=
  field.annotations.Lawful

/-- A model whose annotations and fields are lawful. -/
structure Model.Lawful (model : Model) : Prop where
  annotations : model.annotations.Lawful
  fields : ∀ entry ∈ model.fields, entry.2.Lawful

/-- The schema in place of a lawful field is lawful. -/
theorem ModelField.Lawful.inlineSchema {field : ModelField} (h : field.Lawful) (name : String)
    (cast : Option String) : (field.inlineSchema names name cast).Lawful (· ≠ .null) := by
  rw [ModelField.inlineSchema]
  split
  · next decl hdecl =>
    have hbase : (if decl.attrs.type.isSome then {} else Schema.ofCast cast).Lawful
        (· ≠ .null) := by
      split
      · exact Schema.lawful_empty
      · exact Schema.lawful_ofCast cast
    cases h.property? decl hdecl with
    | mk hattrs hitems hproperties =>
        refine ((hbase.overlay hattrs).shape (some "string") (lawful_fragmentOfItems ?_)
          (lawful_builtProperties hproperties)).withConvention name
        exact forall_mem_orElse hitems h.items?
  · have hschema : ((Schema.ofCast cast).withConvention name).Lawful (· ≠ .null) :=
      (Schema.lawful_ofCast cast).withConvention name
    refine ⟨hschema.keywords.of_eq rfl rfl rfl rfl, ?_, hschema.properties⟩
    -- without a declared property, declared elements replace those of the cast
    dsimp only
    split
    · next items hitems =>
      split
      · exact forall_mem_some (h.items? items hitems).fragment
      · exact hschema.items
    · exact hschema.items

/-- The fragment of a lawful field is lawful. -/
theorem ModelField.Lawful.fragment {field : ModelField} (h : field.Lawful) (name : String)
    (cast : Option String) : (field.fragment names name cast).1.Lawful (· ≠ .null) := by
  rw [ModelField.fragment]
  dsimp only
  split
  · next fragment hfragment => exact ModelNames.lawful_of_optionalFragment? hfragment
  · split
    · next relationship _ => exact relationship.lawful_fragment
    · exact Fragment.lawful_inline_iff.mpr (h.inlineSchema name cast)

/-- The schema in place of a lawful model is lawful. -/
theorem Model.Lawful.inlineSchema {model : Model} (h : model.Lawful) :
    (model.inlineSchema names).Lawful (· ≠ .null) := by
  -- the properties come from the fields alone, the values from the declared schema
  have hfields : LawfulMap (Fragment.Lawful (· ≠ .null))
      (collectMembers (mapMembers Prod.fst (model.fieldFragments names))) := by
    refine .collectMembers (forall_mem_mapMembers ?_)
    intro entry hentry
    obtain ⟨⟨name, field⟩, hfield, rfl⟩ := List.mem_map.mp hentry
    exact (h.fields _ hfield).fragment name (model.castFor? name)
  rw [Model.inlineSchema]
  dsimp only
  split
  · next decl hdecl =>
    have hattrs := (h.annotations.schema? decl hdecl).attrs
    exact ⟨⟨forall_mem_orElse hattrs.enum forall_mem_none,
      forall_mem_orElse hattrs.default forall_mem_none,
      forall_mem_orElse hattrs.exampleValue forall_mem_none,
      forall_mem_orElse hattrs.examples forall_mem_none⟩, forall_mem_none, hfields⟩
  · exact ⟨Schema.lawfulKeywords_empty.of_eq rfl rfl rfl rfl, forall_mem_none, hfields⟩

/-- The fragment of a lawful model is lawful. -/
theorem Model.Lawful.fragment {model : Model} (h : model.Lawful) :
    (model.fragment names).Lawful (· ≠ .null) := by
  rw [Model.fragment]
  split
  · next fragment hfragment => exact ModelNames.lawful_of_optionalFragment? hfragment
  · exact Fragment.lawful_inline_iff.mpr h.inlineSchema

end AnnotatedApi
