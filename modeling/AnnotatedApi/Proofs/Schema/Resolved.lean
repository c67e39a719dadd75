import AnnotatedApi.Proofs.Schema.Declarations
import AnnotatedApi.Proofs.Schema.Pointers

/-! # What is constructed is resolved

Each step of a schema's construction keeps resolved what was resolved. By induction over
declarations, the fragment of any declaration is resolved at any depth, and so are the fragments of
relationships, fields and models. -/

namespace AnnotatedApi

variable {names : ModelNames}

/-! ## Steps of a construction -/

/-- Attributes set neither elements nor properties. -/
theorem Schema.Resolved.overlay {schema : Schema} (h : schema.Resolved names)
    (attrs : SchemaAttrs) : (schema.overlay attrs).Resolved names :=
  h.of_eq rfl rfl

/-- A default type sets neither elements nor properties. -/
theorem Schema.Resolved.withDefaultType {schema : Schema} (h : schema.Resolved names)
    (items : Option Fragment) (properties : List BuiltProperty) (fallback : Option String) :
    (schema.withDefaultType items properties fallback).Resolved names :=
  h.of_eq rfl rfl

/-- Resolved elements and properties can be added to a resolved schema. -/
theorem Schema.Resolved.withNested {schema : Schema} (h : schema.Resolved names)
    {items : Option Fragment} {properties : List BuiltProperty}
    (hitems : ResolvedOption names items)
    (hproperties : ∀ p ∈ properties, p.fragment.Resolved names) :
    (schema.withNested items properties).Resolved names := by
  rw [Schema.withNested]
  split
  · -- an array: declared elements, else those it has, else strings
    rw [Schema.resolved_iff] at h ⊢
    refine ⟨hitems.orElse (h.1.orElse (resolvedOption_some ?_)), h.2⟩
    exact Fragment.resolved_inline_iff.mpr (Schema.resolved_typed _)
  · split
    · exact h
    · rw [Schema.resolved_iff] at h ⊢
      exact ⟨h.1, forall_mem_putMembers (BuiltProperty.forall_mem_named hproperties) h.2⟩
  · exact h

/-- Shaping a resolved schema by resolved parts leaves it resolved. -/
theorem Schema.Resolved.shape {schema : Schema} (h : schema.Resolved names)
    {items : Option Fragment} {properties : List BuiltProperty} (fallback : Option String)
    (hitems : ResolvedOption names items)
    (hproperties : ∀ p ∈ properties, p.fragment.Resolved names) :
    (schema.shape items properties fallback).Resolved names :=
  (h.withDefaultType items properties fallback).withNested hitems hproperties

/-- A conventional name only takes elements and properties away. -/
theorem Schema.Resolved.withConvention {schema : Schema} (h : schema.Resolved names)
    (name : String) : (schema.withConvention name).Resolved names := by
  rw [Schema.withConvention]
  split
  · exact h
  · next forced _ =>
    rw [Schema.resolved_iff] at h ⊢
    -- only a schema of the forced type keeps what it has
    constructor
    · show ResolvedOption names (if forced.type == schema.type then schema.items else none)
      split
      · exact h.1
      · exact resolvedOption_none
    · show ResolvedFragments names (if forced.type == schema.type then schema.properties else [])
      split
      · exact h.2
      · exact resolvedFragments_nil

/-- The schema that says nothing is resolved. -/
theorem Schema.resolved_empty : ({} : Schema).Resolved names :=
  Schema.resolved_of_flat rfl rfl

/-- The schema of a cast is resolved. -/
theorem Schema.resolved_ofCast (cast : Option String) : (Schema.ofCast cast).Resolved names := by
  refine Schema.ofCast_induction (P := Schema.Resolved names) ?_ cast
  intro family
  cases family with
  | array =>
      exact Schema.resolved_arrayOf (Fragment.resolved_inline_iff.mpr (Schema.resolved_typed _))
  | _ => exact Schema.resolved_of_flat rfl rfl

/-! ## Declarations -/

/-- The fragment of a declaration is resolved. -/
theorem ModelNames.hereditary_resolved : names.Hereditary (Fragment.Resolved names) where
  reference h := ModelNames.resolved_of_optionalFragment? h
  shape attrs _ _ fallback hitems hproperties := by
    rw [Fragment.resolved_inline_iff]
    exact (Schema.resolved_empty.overlay attrs).shape fallback hitems hproperties

/-- The fragment of a declared schema is resolved. -/
theorem SchemaDecl.resolved_fragment (decl : SchemaDecl) :
    (decl.fragment names).Resolved names := by
  -- a title and a list of required names change neither elements nor properties
  have htitled : ({ Schema.overlay decl.attrs {} with title := decl.title } : Schema).Resolved
      names := by
    have h : (Schema.overlay decl.attrs {}).Resolved names := Schema.resolved_empty.overlay _
    exact h.of_eq rfl rfl
  have hshaped := htitled.shape none (ModelNames.hereditary_resolved.fragmentOfItems decl.items)
    (ModelNames.hereditary_resolved.builtProperties decl.properties)
  rw [SchemaDecl.fragment]
  split
  · next fragment hfragment => exact ModelNames.resolved_of_optionalFragment? hfragment
  · dsimp only
    split
    · exact Fragment.resolved_inline_iff.mpr (hshaped.of_eq rfl rfl)
    · exact Fragment.resolved_inline_iff.mpr hshaped

/-- An object of declared properties is resolved. -/
theorem resolved_objectOfProperties (properties : List PropertyDecl) :
    (objectOfProperties names properties).Resolved names := by
  rw [objectOfProperties, Fragment.resolved_inline_iff]
  exact (Schema.resolved_typed _).shape none resolvedOption_none
    (ModelNames.hereditary_resolved.builtProperties properties)

/-- The fragment of a relationship is resolved. -/
theorem RelationshipDecl.resolved_fragment (decl : RelationshipDecl) :
    (decl.fragment names).Resolved names := by
  refine RelationshipDecl.fragment_induction (P := Fragment.Resolved names) ?_ ?_ ?_ decl
  · exact ModelNames.resolved_of_fragment?
  · exact Fragment.resolved_inline_iff.mpr (Schema.resolved_typed _)
  · intro _ target htarget
    exact Fragment.resolved_inline_iff.mpr ((Schema.resolved_arrayOf htarget).of_eq rfl rfl)

/-! ## Fields and models -/

/-- The schema in place of a field is resolved. -/
theorem ModelField.resolved_inlineSchema (field : ModelField) (name : String)
    (cast : Option String) : (field.inlineSchema names name cast).Resolved names := by
  rw [ModelField.inlineSchema]
  split
  · next decl _ =>
    have hbase : (if decl.attrs.type.isSome then {} else Schema.ofCast cast).Resolved names := by
      split
      · exact Schema.resolved_empty
      · exact Schema.resolved_ofCast cast
    have hshaped := (hbase.overlay decl.attrs).shape (some "string")
      (ModelNames.hereditary_resolved.fragmentOfItems (decl.items <|> field.annotations.items?))
      (ModelNames.hereditary_resolved.builtProperties decl.properties)
    exact hshaped.withConvention name
  · have h : ((Schema.ofCast cast).withConvention name).Resolved names :=
      (Schema.resolved_ofCast cast).withConvention name
    -- without a declared property, declared elements replace those of the cast
    rw [Schema.resolved_iff] at h ⊢
    refine ⟨?_, h.2⟩
    dsimp only
    split
    · next items _ =>
      split
      · exact resolvedOption_some (ModelNames.hereditary_resolved.itemsDecl items)
      · exact h.1
    · exact h.1

/-- The fragment of a field is resolved. -/
theorem ModelField.resolved_fragment (field : ModelField) (name : String) (cast : Option String) :
    (field.fragment names name cast).1.Resolved names := by
  rw [ModelField.fragment]
  dsimp only
  split
  · next fragment hfragment => exact ModelNames.resolved_of_optionalFragment? hfragment
  · split
    · next relationship _ => exact relationship.resolved_fragment
    · exact Fragment.resolved_inline_iff.mpr (field.resolved_inlineSchema name cast)

/-- The schema in place of a model is resolved. -/
theorem Model.resolved_inlineSchema (model : Model) :
    (model.inlineSchema names).Resolved names := by
  have hfields : ResolvedFragments names
      (collectMembers (mapMembers Prod.fst (model.fieldFragments names))) := by
    refine forall_mem_collectMembers ?_
    refine forall_mem_mapMembers ?_
    intro entry hentry
    obtain ⟨⟨name, field⟩, -, rfl⟩ := List.mem_map.mp hentry
    exact field.resolved_fragment name (model.castFor? name)
  rw [Model.inlineSchema]
  dsimp only
  -- a declared title and the required names leave the properties as they are
  split
  · rw [Schema.resolved_iff]
    exact ⟨resolvedOption_none, hfields⟩
  · rw [Schema.resolved_iff]
    exact ⟨resolvedOption_none, hfields⟩

/-- The fragment of a model is resolved. -/
theorem Model.resolved_fragment (model : Model) : (model.fragment names).Resolved names := by
  rw [Model.fragment]
  split
  · next fragment hfragment => exact ModelNames.resolved_of_optionalFragment? hfragment
  · exact Fragment.resolved_inline_iff.mpr model.resolved_inlineSchema

end AnnotatedApi
