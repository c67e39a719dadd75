import AnnotatedApi.Proofs.Members
import AnnotatedApi.Schema.Construction

/-! # The fragments of declarations

Declared elements and declared properties nest in one another, and so do the fragments that are made
of them. What holds of every such fragment is shown by one induction: references have to have the
property, and a schema in place has to have it whenever the fragments do that give it its shape.
Relationships and casts, in which nothing nests, have their own rules. -/

namespace AnnotatedApi

variable {names : ModelNames}

/-! ## Opening declarations -/

/-- A declared property is the fragment of its reference, or a schema of its keywords in the shape
of what is nested in it. -/
theorem PropertyDecl.fragment_eq (decl : PropertyDecl) :
    decl.fragment names =
      match names.optionalFragment? decl.attrs.reference with
      | some fragment => fragment
      | none =>
          .inline <| (Schema.overlay decl.attrs {}).shape (fragmentOfItems names decl.items)
            (builtProperties names decl.properties) (some "string") := by
  cases decl
  rw [PropertyDecl.fragment]
  rfl

/-- Elements are given exactly where they are declared. -/
theorem isSome_fragmentOfItems (items : Option ItemsDecl) :
    (fragmentOfItems names items).isSome = items.isSome := by
  cases items <;> rw [fragmentOfItems] <;> rfl

/-- A declared property as a part of the schema around it. -/
def PropertyDecl.built (names : ModelNames) (decl : PropertyDecl) : BuiltProperty where
  name := decl.name
  nullable := decl.attrs.nullable.getD false
  required := decl.required
  fragment := decl.fragment names

/-- Declared properties become parts one by one. -/
theorem builtProperties_eq_map (properties : List PropertyDecl) :
    builtProperties names properties = properties.map (PropertyDecl.built names) := by
  induction properties with
  | nil => rw [builtProperties, List.map_nil]
  | cons decl rest ih =>
      rw [builtProperties, ih, List.map_cons]
      rfl

/-- What holds of the fragments of all parts holds of those that are named. -/
theorem BuiltProperty.forall_mem_named {P : Fragment → Prop} {properties : List BuiltProperty}
    (h : ∀ p ∈ properties, P p.fragment) :
    ∀ entry ∈ mapMembers BuiltProperty.fragment (named properties), P entry.2 := by
  refine forall_mem_mapMembers ?_
  intro entry hentry
  obtain ⟨p, hp, hname⟩ := List.mem_filterMap.mp hentry
  obtain ⟨name, -, rfl⟩ := Option.map_eq_some_iff.mp hname
  exact h p hp

/-! ## Relationships and casts -/

/-- The fragment of a relationship is one that is referred to, an object, or an array of one of
these. -/
theorem RelationshipDecl.fragment_induction {P : Fragment → Prop}
    (reference : ∀ {reference : String} {fragment : Fragment},
      names.fragment? reference = some fragment → P fragment)
    (object : P (.inline (.typed "object")))
    (array : ∀ (description : Option String) {target : Fragment}, P target →
      P (.inline { Schema.arrayOf target with description }))
    (decl : RelationshipDecl) : P (decl.fragment names) := by
  have htarget : P ((names.fragment? decl.related).getD (.inline (.typed "object"))) := by
    cases hrelated : names.fragment? decl.related with
    | none => exact object
    | some fragment => exact reference hrelated
  rw [RelationshipDecl.fragment]
  dsimp only
  split
  · exact array decl.description htarget
  · exact htarget

/-- What holds of the schema of every family holds of that of every cast. -/
theorem Schema.ofCast_induction {P : Schema → Prop} (h : ∀ family : CastFamily, P family.schema)
    (cast : Option String) : P (Schema.ofCast cast) := by
  cases cast with
  | none => exact h .string
  | some cast => exact h (CastFamily.ofCast cast)

/-! ## The induction -/

/-- A property of fragments that references have, and that goes from the fragments nested in a
declaration to the schema made of it. -/
structure ModelNames.Hereditary (names : ModelNames) (P : Fragment → Prop) : Prop where
  /-- The fragment of a reference has the property. -/
  reference : ∀ {reference : Option String} {fragment : Fragment},
    names.optionalFragment? reference = some fragment → P fragment
  /-- A schema has the property if all that shapes it has. -/
  shape : ∀ (attrs : SchemaAttrs) {items : Option Fragment} {properties : List BuiltProperty}
    (fallback : Option String), (∀ fragment ∈ items, P fragment) →
    (∀ p ∈ properties, P p.fragment) →
      P (.inline ((Schema.overlay attrs {}).shape items properties fallback))

namespace ModelNames.Hereditary

variable {P : Fragment → Prop}

mutual

/-- Declared elements have the property. -/
theorem itemsDecl (h : names.Hereditary P) : ∀ decl : ItemsDecl, P (decl.fragment names)
  | .mk attrs items properties => by
      rw [ItemsDecl.fragment]
      split
      · next fragment hfragment => exact h.reference hfragment
      · exact h.shape attrs none (h.fragmentOfItems items) (h.builtProperties properties)

/-- A declared property has the property. -/
theorem propertyDecl (h : names.Hereditary P) :
    ∀ decl : PropertyDecl, P (decl.fragment names)
  | .mk _ attrs _ items properties => by
      rw [PropertyDecl.fragment]
      split
      · next fragment hfragment => exact h.reference hfragment
      · exact h.shape attrs (some "string") (h.fragmentOfItems items)
          (h.builtProperties properties)

/-- Optional elements have the property if they are there. -/
theorem fragmentOfItems (h : names.Hereditary P) :
    ∀ items : Option ItemsDecl, ∀ fragment ∈ AnnotatedApi.fragmentOfItems names items, P fragment
  | none => by
      rw [AnnotatedApi.fragmentOfItems]
      intro fragment hfragment
      exact absurd hfragment (Option.not_mem_none fragment)
  | some items => by
      rw [AnnotatedApi.fragmentOfItems]
      intro fragment hfragment
      rw [← Option.mem_some_iff.mp hfragment]
      exact h.itemsDecl items

/-- The parts made of declared properties have the property. -/
theorem builtProperties (h : names.Hereditary P) :
    ∀ properties : List PropertyDecl,
      ∀ p ∈ AnnotatedApi.builtProperties names properties, P p.fragment
  | [] => by
      rw [AnnotatedApi.builtProperties]
      exact List.forall_mem_nil _
  | decl :: rest => by
      rw [AnnotatedApi.builtProperties, List.forall_mem_cons]
      exact ⟨h.propertyDecl decl, h.builtProperties rest⟩

end

end ModelNames.Hereditary

end AnnotatedApi
