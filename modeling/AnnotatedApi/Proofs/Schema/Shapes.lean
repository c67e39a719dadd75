import AnnotatedApi.Proofs.Members
import AnnotatedApi.Proofs.OpenApi.Lawful
import AnnotatedApi.Proofs.Schema.Fields

/-! # Schemas in shape

A schema is in shape when its parts fit its type: elements are there exactly in an array, properties
only in an object, and what is required is a property, each named once. Shaping puts a schema into
shape, so every schema in the fragment of a declaration is, at any depth. In the fragment of a field
this holds for all but one thing: a conventional name takes the properties of an object away and
leaves the names of those that are required. -/

namespace AnnotatedApi

variable {names : ModelNames}

/-! ## Schemas within fragments -/

/-- A schema that stands in place somewhere in a fragment: it is the fragment, or it stands in its
elements or in one of its properties. -/
inductive Fragment.Contains : Fragment → Schema → Prop
  | self (schema : Schema) : Contains (.inline schema) schema
  | items {schema inner : Schema} {items : Fragment} (h : items ∈ schema.items)
      (within : Contains items inner) : Contains (.inline schema) inner
  | property {schema inner : Schema} {entry : String × Fragment} (h : entry ∈ schema.properties)
      (within : Contains entry.2 inner) : Contains (.inline schema) inner

/-- A schema whose elements and properties fit its type, and that requires no name twice. -/
structure Schema.FitsType (schema : Schema) : Prop where
  /-- Elements are there exactly in an array. -/
  items : schema.items.isSome = true ↔ schema.type = some "array"
  /-- Properties are there only in an object. -/
  properties : schema.properties ≠ [] → schema.type = some "object"
  /-- No name is required twice. -/
  nodup : schema.required.Nodup

/-- A schema that requires nothing but properties that it has. -/
def Schema.RequiresOwn (schema : Schema) : Prop :=
  ∀ name ∈ schema.required, name ∈ memberNames schema.properties

/-- A schema whose parts fit its type and that requires nothing but its properties. -/
structure Schema.InShape (schema : Schema) : Prop extends schema.FitsType where
  requiresOwn : schema.RequiresOwn

/-- A fragment in which all schemas have a property, at any depth. -/
def Fragment.All (P : Schema → Prop) (fragment : Fragment) : Prop :=
  ∀ schema, fragment.Contains schema → P schema

namespace Fragment

variable {P Q : Schema → Prop}

/-- There is no schema in a reference. -/
theorem all_ref (pointer : String) : (Fragment.ref pointer).All P :=
  fun _ h => nomatch h

/-- All schemas in a schema in place are itself, those in its elements and those in its
properties. -/
theorem all_inline_iff {schema : Schema} :
    (Fragment.inline schema).All P ↔
      P schema ∧ (∀ items ∈ schema.items, items.All P) ∧
        ∀ entry ∈ schema.properties, entry.2.All P := by
  constructor
  · intro h
    exact ⟨h schema (.self schema), fun items hitems inner hinner => h inner (.items hitems hinner),
      fun entry hentry inner hinner => h inner (.property hentry hinner)⟩
  · rintro ⟨hself, hitems, hproperties⟩ inner hinner
    cases hinner with
    | self => exact hself
    | items h within => exact hitems _ h inner within
    | property h within => exact hproperties _ h inner within

/-- Without elements and properties, a schema in place is all that there is. -/
theorem all_inline_of_flat {schema : Schema} (hitems : schema.items = none)
    (hproperties : schema.properties = []) : (Fragment.inline schema).All P ↔ P schema := by
  rw [all_inline_iff, hitems, hproperties]
  exact ⟨fun h => h.1, fun h => ⟨h, forall_mem_none, List.forall_mem_nil _⟩⟩

/-- A property that follows from another one. -/
theorem All.imp {fragment : Fragment} (h : fragment.All P) (himp : ∀ schema, P schema → Q schema) :
    fragment.All Q :=
  fun schema hschema => himp schema (h schema hschema)

end Fragment

/-! ## Shaping -/

namespace Schema

/-- A schema that nothing was nested in yet: only an array has elements, and there are neither
properties nor required names. -/
structure Unshaped (schema : Schema) : Prop where
  items : schema.items.isSome = true → schema.type = some "array"
  properties : schema.properties = []
  required : schema.required = []

/-- Only an array has elements when a schema is given its parts. -/
theorem Unshaped.items_eq_none {schema : Schema} (h : schema.Unshaped)
    (htype : schema.type ≠ some "array") : schema.items = none := by
  rw [← Option.not_isSome_iff_eq_none]
  exact mt h.items htype

/-- A schema without properties and required names is in shape when its elements fit its type. -/
theorem inShape_of_no_properties {schema : Schema}
    (hitems : schema.items.isSome = true ↔ schema.type = some "array")
    (hproperties : schema.properties = []) (hrequired : schema.required = []) :
    schema.InShape where
  items := hitems
  properties hne := absurd hproperties hne
  nodup := hrequired ▸ List.nodup_nil
  requiresOwn _ hname := absurd (hrequired ▸ hname) List.not_mem_nil

/-- The names of those properties that are named and required. -/
theorem mem_requiredNames_iff {properties : List BuiltProperty} {name : String} :
    name ∈ memberNames
        ((BuiltProperty.named properties).filter fun entry => entry.2.isRequired) ↔
      ∃ p ∈ properties, p.name = some name ∧ p.isRequired = true := by
  simp only [memberNames, BuiltProperty.named, List.mem_map, List.mem_filter, List.mem_filterMap,
    Option.map_eq_some_iff]
  constructor
  · rintro ⟨entry, ⟨⟨p, hp, other, hname, rfl⟩, hrequired⟩, rfl⟩
    exact ⟨p, hp, hname, hrequired⟩
  · rintro ⟨p, hp, hname, hrequired⟩
    exact ⟨(name, p), ⟨⟨p, hp, name, hname, rfl⟩, hrequired⟩, rfl⟩

/-- What is required is named, and all that is named is set. -/
theorem mem_memberNames_of_required {properties : List BuiltProperty} {name : String}
    (h : name ∈ withoutRepeats (memberNames
      ((BuiltProperty.named properties).filter fun entry => entry.2.isRequired))) :
    name ∈ memberNames (collectMembers
      (mapMembers BuiltProperty.fragment (BuiltProperty.named properties))) := by
  rw [withoutRepeats, List.mem_eraseDups] at h
  rw [memberNames_collectMembers, memberNames_mapMembers, List.mem_eraseDups]
  exact (memberNames_filter_sublist _ _).subset h

/-- Elements and properties that are in shape put a schema into shape. -/
theorem Unshaped.inShape_withNested {schema : Schema} (h : schema.Unshaped)
    {items : Option Fragment} {properties : List BuiltProperty}
    (hown : ∀ f ∈ schema.items, f.All InShape) (hitems : ∀ f ∈ items, f.All InShape)
    (hproperties : ∀ p ∈ properties, p.fragment.All InShape) :
    (Fragment.inline (schema.withNested items properties)).All InShape := by
  rw [withNested]
  split
  · next htype =>
    -- an array has the declared elements, else its own, else texts
    have htext : (Fragment.inline (typed "string")).All InShape := by
      rw [Fragment.all_inline_of_flat rfl rfl]
      exact inShape_of_no_properties (by decide) rfl rfl
    rw [Fragment.all_inline_iff]
    refine ⟨inShape_of_no_properties ?_ h.properties h.required,
      forall_mem_orElse hitems (forall_mem_orElse hown (forall_mem_some htext)), ?_⟩
    · refine iff_of_true ?_ htype
      cases items <;> cases schema.items <;> rfl
    · rw [h.properties]
      exact List.forall_mem_nil _
  · next htype =>
    have hnone : schema.items = none := by
      refine h.items_eq_none ?_
      rw [htype]
      decide
    have hnot : schema.items.isSome = true ↔ schema.type = some "array" := by
      rw [hnone, htype]
      decide
    split
    · rw [Fragment.all_inline_of_flat hnone h.properties]
      exact inShape_of_no_properties hnot h.properties h.required
    · -- an object sets its properties and what it requires of them together
      rw [Fragment.all_inline_iff]
      dsimp only
      rw [h.properties]
      refine ⟨⟨⟨hnot, fun _ => htype, nodup_eraseDups _⟩, ?_⟩, ?_, ?_⟩
      · exact fun name hname => mem_memberNames_of_required hname
      · rw [hnone]
        exact forall_mem_none
      · exact forall_mem_collectMembers (BuiltProperty.forall_mem_named hproperties)
  · next harray _ =>
    have hnone := h.items_eq_none harray
    rw [Fragment.all_inline_of_flat hnone h.properties]
    refine inShape_of_no_properties ?_ h.properties h.required
    rw [hnone]
    exact iff_of_false Bool.false_ne_true harray

/-- Shaping by parts that are in shape puts a schema into shape. -/
theorem Unshaped.inShape_shape {schema : Schema} (h : schema.Unshaped)
    {items : Option Fragment} {properties : List BuiltProperty} (fallback : Option String)
    (hown : ∀ f ∈ schema.items, f.All InShape) (hitems : ∀ f ∈ items, f.All InShape)
    (hproperties : ∀ p ∈ properties, p.fragment.All InShape) :
    (Fragment.inline (schema.shape items properties fallback)).All InShape := by
  have htyped : (schema.withDefaultType items properties fallback).Unshaped := by
    refine ⟨fun hsome => ?_, h.properties, h.required⟩
    -- elements are there only if the type is
    rw [withDefaultType, h.items hsome]
    rfl
  exact htyped.inShape_withNested hown hitems hproperties

/-- Attributes over the schema that says nothing leave it unshaped. -/
theorem unshaped_overlay_empty (attrs : SchemaAttrs) : (Schema.overlay attrs {}).Unshaped :=
  ⟨fun h => absurd h Bool.false_ne_true, rfl, rfl⟩

/-- What is nested in an unshaped schema is there if the schema becomes an object, and then it is all
that is named. -/
theorem Unshaped.parts_shape {schema : Schema} (h : schema.Unshaped) (items : Option Fragment)
    (properties : List BuiltProperty) (fallback : Option String) :
    (schema.shape items properties fallback).properties =
        (if (schema.shape items properties fallback).type = some "object" then
          collectMembers (mapMembers BuiltProperty.fragment (BuiltProperty.named properties))
        else []) ∧
      (schema.shape items properties fallback).required =
        (if (schema.shape items properties fallback).type = some "object" then
          withoutRepeats (memberNames
            ((BuiltProperty.named properties).filter fun entry => entry.2.isRequired))
        else []) := by
  have hproperties : (schema.withDefaultType items properties fallback).properties = [] :=
    h.properties
  have hrequired : (schema.withDefaultType items properties fallback).required = [] := h.required
  rw [shape, type_withNested, withNested]
  split
  · next harray =>
    rw [harray]
    exact ⟨hproperties, hrequired⟩
  · next hobject =>
    rw [if_pos hobject, if_pos hobject]
    split
    · next hempty =>
      rw [List.isEmpty_iff.mp hempty]
      exact ⟨hproperties, hrequired⟩
    · dsimp only
      rw [hproperties]
      exact ⟨rfl, rfl⟩
  · next hother =>
    rw [if_neg hother, if_neg hother]
    exact ⟨hproperties, hrequired⟩

/-- An unshaped schema is shaped to require something exactly if it becomes an object and one of its
named properties is required. -/
theorem Unshaped.required_shape_eq_nil_iff {schema : Schema} (h : schema.Unshaped)
    (items : Option Fragment) (properties : List BuiltProperty) (fallback : Option String) :
    (schema.shape items properties fallback).required = [] ↔
      ¬ ((schema.shape items properties fallback).type = some "object" ∧
        ∃ p ∈ properties, p.name.isSome = true ∧ p.isRequired = true) := by
  rw [(h.parts_shape items properties fallback).2]
  split
  · next htype =>
    rw [and_iff_right htype, withoutRepeats, List.eq_nil_iff_forall_not_mem]
    simp only [List.mem_eraseDups, mem_requiredNames_iff, Option.isSome_iff_exists]
    constructor
    · rintro hnone ⟨p, hp, ⟨name, hname⟩, hrequired⟩
      exact hnone name ⟨p, hp, hname, hrequired⟩
    · rintro hnone name ⟨p, hp, hname, hrequired⟩
      exact hnone ⟨p, hp, ⟨name, hname⟩, hrequired⟩
  · next htype => exact iff_of_true rfl fun hobject => htype hobject.1

end Schema

/-! ## Declarations and relationships -/

/-- Every schema in the fragment of a declaration is in shape. -/
theorem hereditary_inShape : names.Hereditary (Fragment.All Schema.InShape) where
  reference h := by
    obtain ⟨pointer, rfl⟩ := ModelNames.exists_ref_of_optionalFragment? h
    exact Fragment.all_ref pointer
  shape attrs _ _ fallback hitems hproperties :=
    (Schema.unshaped_overlay_empty attrs).inShape_shape fallback forall_mem_none hitems hproperties

/-- Every schema in the fragment of a relationship is in shape. -/
theorem RelationshipDecl.inShape_fragment (decl : RelationshipDecl) :
    (decl.fragment names).All Schema.InShape := by
  refine RelationshipDecl.fragment_induction (P := Fragment.All Schema.InShape) ?_ ?_ ?_ decl
  · intro _ fragment hfragment
    obtain ⟨pointer, -, rfl⟩ := Option.map_eq_some_iff.mp hfragment
    exact Fragment.all_ref pointer
  · rw [Fragment.all_inline_of_flat rfl rfl]
    exact Schema.inShape_of_no_properties (by decide) rfl rfl
  · intro _ target htarget
    rw [Fragment.all_inline_iff]
    exact ⟨Schema.inShape_of_no_properties (iff_of_true rfl rfl) rfl rfl, forall_mem_some htarget,
      List.forall_mem_nil _⟩

/-! ## Casts and conventional names -/

namespace Schema

/-- The schema of a cast is unshaped, and its elements are in shape. -/
theorem unshaped_ofCast (cast : Option String) :
    (Schema.ofCast cast).Unshaped ∧ ∀ f ∈ (Schema.ofCast cast).items, f.All InShape := by
  refine ofCast_induction (P := fun s => s.Unshaped ∧ ∀ f ∈ s.items, f.All InShape) ?_ cast
  intro family
  cases family with
  | array =>
      refine ⟨⟨fun _ => rfl, rfl, rfl⟩, forall_mem_some ?_⟩
      rw [Fragment.all_inline_of_flat rfl rfl]
      exact inShape_of_no_properties (by decide) rfl rfl
  | _ => exact ⟨⟨fun h => absurd h Bool.false_ne_true, rfl, rfl⟩, forall_mem_none⟩

/-- The schema of a cast has elements exactly if it is that of an array. -/
theorem isSome_items_ofCast_iff (cast : Option String) :
    (Schema.ofCast cast).items.isSome = true ↔ (Schema.ofCast cast).type = some "array" := by
  refine ofCast_induction (P := fun s => s.items.isSome = true ↔ s.type = some "array") ?_ cast
  intro family
  cases family <;> decide

/-- No name changes what is required. -/
@[simp] theorem required_withConvention (name : String) (schema : Schema) :
    (schema.withConvention name).required = schema.required := by
  rw [withConvention]
  split <;> rfl

/-- A conventional name leaves neither the type of an array nor elements nor properties. -/
theorem flat_withConvention {schema : Schema} {name : String} (hname : IsConventional name)
    (hitems : schema.items.isSome = true ↔ schema.type = some "array")
    (hproperties : schema.properties ≠ [] → schema.type = some "object") :
    (schema.withConvention name).type ≠ some "array" ∧ (schema.withConvention name).items = none ∧
      (schema.withConvention name).properties = [] := by
  cases hforced : conventionalSchema? name with
  | none => exact absurd hname (conventionalSchema?_eq_none_iff.mp hforced)
  | some forced =>
      -- a forced type has no place for elements or properties
      have hother : forced.type ≠ some "array" ∧ forced.type ≠ some "object" := by
        rcases type_of_conventionalSchema? hforced with htype | htype <;> rw [htype] <;> decide
      rw [withConvention, hforced]
      refine ⟨hother.1, ?_, ?_⟩
      · dsimp only
        split
        · next hsame =>
          rw [← Option.not_isSome_iff_eq_none, hitems, ← beq_iff_eq.mp hsame]
          exact hother.1
        · rfl
      · dsimp only
        split
        · next hsame =>
          by_contra hne
          exact hother.2 ((beq_iff_eq.mp hsame).trans (hproperties hne))
        · rfl

/-- The cast and the name of a field leave a schema that has neither properties nor required names,
and whose elements fit its type. -/
theorem parts_withConvention_ofCast (name : String) (cast : Option String) :
    (((Schema.ofCast cast).withConvention name).items.isSome = true ↔
        ((Schema.ofCast cast).withConvention name).type = some "array") ∧
      ((Schema.ofCast cast).withConvention name).properties = [] ∧
        ((Schema.ofCast cast).withConvention name).required = [] ∧
          ∀ f ∈ ((Schema.ofCast cast).withConvention name).items, f.All InShape := by
  obtain ⟨hcast, hown⟩ := unshaped_ofCast cast
  by_cases hname : IsConventional name
  · obtain ⟨htype, hitems, hproperties⟩ := flat_withConvention hname
      (isSome_items_ofCast_iff cast) fun hne => absurd hcast.properties hne
    rw [required_withConvention, hitems]
    exact ⟨iff_of_false Bool.false_ne_true htype, hproperties, hcast.required, forall_mem_none⟩
  · rw [withConvention_of_not_isConventional hname]
    exact ⟨isSome_items_ofCast_iff cast, hcast.properties, hcast.required, hown⟩

/-- Under a conventional name, the parts of a schema in shape still fit its type, but what it
requires is gone. -/
theorem InShape.forced {schema : Schema} (h : schema.InShape) {name : String}
    (hname : IsConventional name) :
    (Fragment.inline (schema.withConvention name)).All FitsType ∧
      ((Fragment.inline (schema.withConvention name)).All RequiresOwn ↔ schema.required = []) := by
  obtain ⟨htype, hitems, hproperties⟩ := flat_withConvention hname h.items h.properties
  rw [Fragment.all_inline_of_flat hitems hproperties,
    Fragment.all_inline_of_flat hitems hproperties]
  constructor
  · refine ⟨?_, fun hne => absurd hproperties hne, ?_⟩
    · rw [hitems]
      exact iff_of_false Bool.false_ne_true htype
    · rw [required_withConvention]
      exact h.nodup
  · rw [RequiresOwn, hproperties, required_withConvention, List.eq_nil_iff_forall_not_mem]
    simp only [memberNames_nil, List.not_mem_nil, imp_false]

end Schema

/-! ## Fields -/

/-- Whether a property is required of the object that it is declared in: as declared, or else if it
neither allows null nor is an array or object in place. -/
def PropertyDecl.IsRequired (names : ModelNames) (decl : PropertyDecl) : Prop :=
  decl.required.getD (!decl.attrs.nullable.getD false && !(decl.fragment names).isNested) = true

namespace ModelField

/-- A field whose conventional name takes away the type of an object with required properties. -/
structure LosesObject (field : ModelField) (names : ModelNames) (name : String)
    (cast : Option String) : Prop where
  /-- The name forces a type. -/
  conventional : IsConventional name
  /-- The field is no reference. -/
  inPlace : RefersToNothing field.reference?
  /-- The field is no relationship. -/
  unrelated : field.annotations.relationship? = none
  /-- As declared, or else by its cast, the field is an object, and one of its properties is
  required. -/
  requires : ∃ decl ∈ field.annotations.property?,
    (decl.attrs.type <|> (Schema.ofCast cast).type) = some "object" ∧
      ∃ property ∈ decl.properties, property.name.isSome = true ∧ property.IsRequired names

variable {field : ModelField}

/-- The keywords of a declared property leave its base unshaped, and the elements of the base are in
shape. -/
theorem unshaped_base (decl : PropertyDecl) (cast : Option String) :
    ((base decl cast).overlay decl.attrs).Unshaped ∧
      ∀ f ∈ ((base decl cast).overlay decl.attrs).items, f.All Schema.InShape := by
  rw [base]
  cases htype : decl.attrs.type with
  | some type => exact ⟨Schema.unshaped_overlay_empty decl.attrs, forall_mem_none⟩
  | none =>
      obtain ⟨hcast, hitems⟩ := Schema.unshaped_ofCast cast
      refine ⟨⟨fun hsome => ?_, hcast.properties, hcast.required⟩, hitems⟩
      rw [Schema.type_overlay, htype]
      exact hcast.items hsome

/-- The schema of a declared property is in shape before the name of its field is looked at. -/
theorem inShape_declaredSchema (field : ModelField) (names : ModelNames) (decl : PropertyDecl)
    (cast : Option String) :
    (Fragment.inline (field.declaredSchema names decl cast)).All Schema.InShape := by
  obtain ⟨hbase, hitems⟩ := unshaped_base decl cast
  exact hbase.inShape_shape (some "string") hitems (hereditary_inShape.fragmentOfItems _)
    (hereditary_inShape.builtProperties _)

/-- The schema of a declared property requires nothing exactly if it is not that of an object of
which a property is required. -/
theorem required_declaredSchema_eq_nil_iff (field : ModelField) (decl : PropertyDecl)
    (cast : Option String) :
    (field.declaredSchema names decl cast).required = [] ↔
      ¬ ((decl.attrs.type <|> (Schema.ofCast cast).type) = some "object" ∧
        ∃ property ∈ decl.properties, property.name.isSome = true ∧ property.IsRequired names) := by
  rw [← type_declaredSchema field names, declaredSchema,
    (unshaped_base decl cast).1.required_shape_eq_nil_iff, builtProperties_eq_map]
  simp only [List.mem_map, exists_exists_and_eq_and]
  rfl

/-- Without a declared property, every schema of a field is in shape. -/
theorem inShape_inlineSchema_of_none (h : field.annotations.property? = none) (name : String)
    (cast : Option String) :
    (Fragment.inline (field.inlineSchema names name cast)).All Schema.InShape := by
  obtain ⟨hitems, hproperties, hrequired, hown⟩ := Schema.parts_withConvention_ofCast name cast
  rw [inlineSchema, h]
  dsimp only
  generalize (Schema.ofCast cast).withConvention name = schema at *
  rw [Fragment.all_inline_iff]
  -- declared elements take the place of those of the cast, and only in an array
  refine ⟨Schema.inShape_of_no_properties ?_ hproperties hrequired, ?_, ?_⟩
  · dsimp only
    split
    · split
      · next harray => exact iff_of_true rfl (beq_iff_eq.mp harray)
      · exact hitems
    · exact hitems
  · dsimp only
    split
    · split
      · exact forall_mem_some (hereditary_inShape.itemsDecl _)
      · exact hown
    · exact hown
  · rw [hproperties]
    exact List.forall_mem_nil _

/-- Under a conventional name, the parts of a declared property fit its type, and it requires
something exactly if it is that of an object of which a property is required. -/
theorem fitsType_and_requiresOwn_of_isConventional {decl : PropertyDecl}
    (hproperty : field.annotations.property? = some decl) {name : String}
    (hname : IsConventional name) (cast : Option String) :
    (Fragment.inline (field.inlineSchema names name cast)).All Schema.FitsType ∧
      ((Fragment.inline (field.inlineSchema names name cast)).All Schema.RequiresOwn ↔
        ¬ ((decl.attrs.type <|> (Schema.ofCast cast).type) = some "object" ∧
          ∃ property ∈ decl.properties,
            property.name.isSome = true ∧ property.IsRequired names)) := by
  obtain ⟨hself, -⟩ := Fragment.all_inline_iff.mp (field.inShape_declaredSchema names decl cast)
  obtain ⟨hfits, hrequires⟩ := hself.forced hname
  rw [inlineSchema_of_property hproperty]
  exact ⟨hfits, hrequires.trans (field.required_declaredSchema_eq_nil_iff decl cast)⟩

/-- Whatever a field declares, the elements and properties of every schema in its fragment fit the
type, and no name is required twice. Every schema requires nothing but its properties, unless the
name of the field takes away the type of an object that has required properties. -/
theorem fitsType_and_requiresOwn_iff (field : ModelField) (names : ModelNames) (name : String)
    (cast : Option String) :
    (field.fragment names name cast).1.All Schema.FitsType ∧
      ((field.fragment names name cast).1.All Schema.RequiresOwn ↔
        ¬ field.LosesObject names name cast) := by
  -- where everything is in shape, it remains to see that no object is lost
  have hshaped : ∀ fragment : Fragment, fragment.All Schema.InShape →
      ¬ field.LosesObject names name cast → fragment.All Schema.FitsType ∧
        (fragment.All Schema.RequiresOwn ↔ ¬ field.LosesObject names name cast) :=
    fun _ h hnot => ⟨h.imp fun _ hs => hs.toFitsType,
      iff_of_true (h.imp fun _ hs => hs.requiresOwn) hnot⟩
  by_cases hplace : RefersToNothing field.reference?
  · cases hrelated : field.annotations.relationship? with
    | some relationship =>
        rw [fst_fragment_of_relationship hplace hrelated]
        refine hshaped _ relationship.inShape_fragment fun hlost => ?_
        exact absurd (hrelated.symm.trans hlost.unrelated) (Option.some_ne_none _)
    | none =>
        rw [fst_fragment_eq_inline hplace hrelated]
        cases hproperty : field.annotations.property? with
        | none =>
            refine hshaped _ (inShape_inlineSchema_of_none hproperty name cast) fun hlost => ?_
            obtain ⟨decl, hdecl, -⟩ := hlost.requires
            exact absurd (hproperty ▸ hdecl) (Option.not_mem_none decl)
        | some decl =>
            by_cases hname : IsConventional name
            · obtain ⟨hfits, hrequires⟩ :=
                fitsType_and_requiresOwn_of_isConventional hproperty hname cast
              refine ⟨hfits, hrequires.trans (not_congr ⟨?_, ?_⟩)⟩
              · exact fun hrequired => ⟨hname, hplace, hrelated, decl, hproperty, hrequired⟩
              · intro hlost
                obtain ⟨other, hother, hrequired⟩ := hlost.requires
                rw [hproperty, Option.mem_some_iff] at hother
                exact hother ▸ hrequired
            · rw [inlineSchema_of_property hproperty,
                Schema.withConvention_of_not_isConventional hname]
              exact hshaped _ (field.inShape_declaredSchema names decl cast)
                fun hlost => hname hlost.conventional
  · obtain ⟨fragment, hfragment⟩ := names.exists_optionalFragment? hplace
    rw [fst_fragment_of_reference hfragment]
    exact hshaped _ (hereditary_inShape.reference hfragment) fun hlost => hplace hlost.inPlace

/-- An address that is declared as an object with a street. -/
def addressField : ModelField where
  annotations := [.property (.mk none { type := some "object" } none none
    [.mk (some "street") { type := some "string" } none none []])]

/-- Under the name of a foreign key, an address is a number that requires a street. -/
theorem requires_missing_addressField :
    ∃ schema, (addressField.fragment {} "address_id" none).1.Contains schema ∧
      schema.type = some "integer" ∧ "street" ∈ schema.required ∧
        "street" ∉ memberNames schema.properties :=
  ⟨_, .self _, rfl, List.mem_singleton.mpr rfl, List.not_mem_nil⟩

end ModelField

end AnnotatedApi
