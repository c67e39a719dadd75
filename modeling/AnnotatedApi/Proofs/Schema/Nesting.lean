import AnnotatedApi.Proofs.Schema.Shapes

/-! # Schemas that follow their declarations

The fragment of a declaration is a tree, and so is the declaration itself. A step from a schema to
its elements or to one of its properties is also a step from the declaration to the one that this
part is made of. Every node of the fragment, at any depth, is therefore the fragment of the
declaration at the same path, and what all nodes have in common comes down to what is true of the
fragment of one declaration. -/

namespace AnnotatedApi

variable {names : ModelNames}

/-! ## Nodes -/

/-- A step from a schema to one of its parts. -/
inductive SchemaStep where
  | items
  | property (name : String)

/-- A node of a fragment, with the path that leads to it. -/
inductive Fragment.HasNode : Fragment → List SchemaStep → Fragment → Prop
  | self (fragment : Fragment) : HasNode fragment [] fragment
  | items {schema : Schema} {items node : Fragment} {path : List SchemaStep}
      (h : items ∈ schema.items) (within : HasNode items path node) :
      HasNode (.inline schema) (.items :: path) node
  | property {schema : Schema} {name : String} {part node : Fragment} {path : List SchemaStep}
      (h : (name, part) ∈ schema.properties) (within : HasNode part path node) :
      HasNode (.inline schema) (.property name :: path) node

/-- What a declaration says of one schema, be it a declaration of elements, of a property or of a
schema. Where neither a keyword nor what is nested tells the type, it is the fallback. -/
structure ShapeDecl where
  title : Option String := none
  attrs : SchemaAttrs := {}
  items : Option ItemsDecl := none
  properties : List PropertyDecl := []
  fallback : Option String := none

/-- Declared elements. -/
def ItemsDecl.shape (decl : ItemsDecl) : ShapeDecl where
  attrs := decl.attrs
  items := decl.items
  properties := decl.properties

/-- A declared property is a text where nothing else is said. -/
def PropertyDecl.shape (decl : PropertyDecl) : ShapeDecl where
  attrs := decl.attrs
  items := decl.items
  properties := decl.properties
  fallback := some "string"

/-- A declared schema. -/
def SchemaDecl.shape (decl : SchemaDecl) : ShapeDecl where
  title := decl.title
  attrs := decl.attrs
  items := decl.items
  properties := decl.properties

namespace ShapeDecl

/-- The object that has declared properties. -/
def object (properties : List PropertyDecl) : ShapeDecl where
  attrs := { type := some "object" }
  properties

/-- The elements of an array of which nothing is declared are texts. -/
def text : ShapeDecl where
  attrs := { type := some "string" }

/-- The declaration that a step leads to. Of several properties of one name, the last one counts. -/
def child? (decl : ShapeDecl) : SchemaStep → Option ShapeDecl
  | .items =>
      match decl.items with
      | some items => some items.shape
      | none => some text
  | .property name =>
      ((decl.properties.filter fun p => p.name = some name).getLast?).map PropertyDecl.shape

/-- The declaration at the end of a path. -/
def at? (decl : ShapeDecl) : List SchemaStep → Option ShapeDecl
  | [] => some decl
  | step :: path => (decl.child? step).bind fun child => child.at? path

end ShapeDecl

/-- What a node is, given the declaration that it is made of. -/
structure Fragment.Suits (node : Fragment) (decl : ShapeDecl) : Prop where
  /-- The node is a reference, which has no keywords, exactly if the declaration refers to
  something. -/
  reference : (∃ pointer, node = .ref pointer) ↔ ¬ RefersToNothing decl.attrs.reference
  /-- Otherwise it is a schema in shape. -/
  inShape : ∀ schema, node = .inline schema → schema.InShape
  /-- Where all properties of an object have different names, each of them is there, and it is
  required as declared, or else if it neither allows null nor is an array or object in place. -/
  required : ∀ schema, node = .inline schema → schema.type = some "object" →
    (decl.properties.filterMap PropertyDecl.name).Nodup → ∀ p ∈ decl.properties,
      ∀ name ∈ p.name, ∃ part, (name, part) ∈ schema.properties ∧
        (name ∈ schema.required ↔
          p.required = some true ∨
            p.required = none ∧ p.attrs.nullable ≠ some true ∧ part.isNested = false)

/-- Every node of a fragment is made of the declaration at its path. -/
def Fragment.Follows (fragment : Fragment) (decl : ShapeDecl) : Prop :=
  ∀ path node, fragment.HasNode path node → ∃ inner, decl.at? path = some inner ∧ node.Suits inner

/-! ## Declared parts -/

/-- The elements of a schema that had none are those that are given, or else texts. -/
theorem Schema.eq_of_mem_items_shape {schema : Schema} (h : schema.items = none)
    {items : Option Fragment} {properties : List BuiltProperty} {fallback : Option String}
    {fragment : Fragment} (hfragment : fragment ∈ (schema.shape items properties fallback).items) :
    fragment = items.getD (.inline (typed "string")) := by
  have hnone : (schema.withDefaultType items properties fallback).items = none := h
  rw [shape, withNested] at hfragment
  split at hfragment
  · rw [hnone] at hfragment
    cases items <;> exact (Option.some.inj hfragment).symm
  · split at hfragment
    · exact absurd (hnone ▸ hfragment) (Option.not_mem_none _)
    · exact absurd (hnone ▸ hfragment) (Option.not_mem_none _)
  · exact absurd (hnone ▸ hfragment) (Option.not_mem_none _)

/-- The parts of declared properties are named as these are. -/
theorem memberNames_named_builtProperties (names : ModelNames) (properties : List PropertyDecl) :
    memberNames (BuiltProperty.named (builtProperties names properties)) =
      properties.filterMap PropertyDecl.name := by
  rw [builtProperties_eq_map, BuiltProperty.named, List.filterMap_map, memberNames,
    List.map_filterMap]
  congr 1
  funext decl
  cases hname : decl.name <;> simp [PropertyDecl.built, hname]

/-- The part of a named property is among the named parts. -/
theorem mem_named_builtProperties (names : ModelNames) {properties : List PropertyDecl}
    {p : PropertyDecl} (hp : p ∈ properties) {name : String} (hname : p.name = some name) :
    (name, p.built names) ∈ BuiltProperty.named (builtProperties names properties) := by
  rw [builtProperties_eq_map]
  refine List.mem_filterMap.mpr ⟨p.built names, List.mem_map_of_mem hp, ?_⟩
  show p.name.map _ = _
  rw [hname]
  rfl

/-- The fragments under one name are those of the properties of this name. -/
theorem filter_named_builtProperties (properties : List PropertyDecl) (name : String) :
    ((mapMembers BuiltProperty.fragment
        (BuiltProperty.named (builtProperties names properties))).filter
          fun entry => entry.1 = name) =
      (properties.filter fun p => p.name = some name).map fun p => (name, p.fragment names) := by
  rw [builtProperties_eq_map, BuiltProperty.named, mapMembers]
  induction properties with
  | nil => rfl
  | cons p rest ih =>
      rw [List.map_cons, List.filterMap_cons, List.filter_cons]
      cases hname : p.name with
      | none => simpa [PropertyDecl.built, hname] using ih
      | some own =>
          by_cases heq : own = name
          · simpa [PropertyDecl.built, hname, heq] using ih
          · simpa [PropertyDecl.built, hname, heq] using ih

/-- Whether a declared property is required, by what it declares and by what it is. -/
theorem PropertyDecl.isRequired_iff (decl : PropertyDecl) :
    decl.IsRequired names ↔
      decl.required = some true ∨ decl.required = none ∧ decl.attrs.nullable ≠ some true ∧
        (decl.fragment names).isNested = false := by
  rw [PropertyDecl.IsRequired]
  rcases decl.required with _ | _ | _
  · rcases decl.attrs.nullable with _ | _ | _ <;> simp
  · simp
  · simp

/-! ## One declaration -/

namespace ShapeDecl

/-- The schema of a declaration that refers to nothing. -/
def schema (names : ModelNames) (decl : ShapeDecl) : Schema :=
  { Schema.overlay decl.attrs {} with title := decl.title }.shape
    (fragmentOfItems names decl.items) (builtProperties names decl.properties) decl.fallback

/-- The fragment of a declaration. -/
def fragment (names : ModelNames) (decl : ShapeDecl) : Fragment :=
  match names.optionalFragment? decl.attrs.reference with
  | some fragment => fragment
  | none => .inline (decl.schema names)

variable {decl : ShapeDecl}

/-- The keywords of a declaration leave the schema unshaped. -/
theorem unshaped_keywords (decl : ShapeDecl) :
    { Schema.overlay decl.attrs {} with title := decl.title }.Unshaped :=
  ⟨fun h => absurd h Bool.false_ne_true, rfl, rfl⟩

/-- The schema of a declaration is in shape. -/
theorem inShape_schema (decl : ShapeDecl) : (decl.schema names).InShape := by
  have hall : (Fragment.inline (decl.schema names)).All Schema.InShape :=
    decl.unshaped_keywords.inShape_shape decl.fallback forall_mem_none
      (hereditary_inShape.fragmentOfItems _) (hereditary_inShape.builtProperties _)
  exact hall _ (.self _)

/-- The type of a declaration is its own, else the one that is needed for what is nested in it. -/
theorem type_schema (decl : ShapeDecl) :
    (decl.schema names).type =
      (decl.attrs.type <|>
        if decl.items.isSome then some "array" else if !decl.properties.isEmpty then some "object"
        else decl.fallback) := by
  rw [schema, Schema.type_shape, isSome_fragmentOfItems, builtProperties_eq_map, List.isEmpty_map]
  show ((decl.attrs.type <|> none) <|> _) = _
  cases decl.attrs.type <;> rfl

/-- The properties of an object are those that are named; the last of a name counts. -/
theorem properties_schema (h : (decl.schema names).type = some "object") :
    (decl.schema names).properties = collectMembers (mapMembers BuiltProperty.fragment
      (BuiltProperty.named (builtProperties names decl.properties))) := by
  rw [schema] at h ⊢
  rw [(decl.unshaped_keywords.parts_shape _ _ _).1, if_pos h]

/-- An object requires those of its named properties that are to be required. -/
theorem required_schema (h : (decl.schema names).type = some "object") :
    (decl.schema names).required = withoutRepeats (memberNames
      ((BuiltProperty.named (builtProperties names decl.properties)).filter
        fun entry => entry.2.isRequired)) := by
  rw [schema] at h ⊢
  rw [(decl.unshaped_keywords.parts_shape _ _ _).2, if_pos h]

/-- A schema in place is made of a declaration that refers to nothing. -/
theorem eq_schema_of_inline {schema : Schema} (h : .inline schema = decl.fragment names) :
    RefersToNothing decl.attrs.reference ∧ schema = decl.schema names := by
  rw [fragment] at h
  split at h
  · next fragment hfragment =>
    obtain ⟨pointer, rfl⟩ := ModelNames.exists_ref_of_optionalFragment? hfragment
    exact Fragment.noConfusion h
  · next hnone => exact ⟨ModelNames.optionalFragment?_eq_none_iff.mp hnone, Fragment.inline.inj h⟩

/-- A reference is made of a declaration that refers to something. -/
theorem exists_ref_iff (decl : ShapeDecl) :
    (∃ pointer, decl.fragment names = .ref pointer) ↔ ¬ RefersToNothing decl.attrs.reference := by
  constructor
  · rintro ⟨pointer, hpointer⟩ hnothing
    rw [fragment, ModelNames.optionalFragment?_eq_none_iff.mpr hnothing] at hpointer
    exact Fragment.noConfusion hpointer
  · intro h
    obtain ⟨fragment, hfragment⟩ := names.exists_optionalFragment? h
    rw [ShapeDecl.fragment, hfragment]
    exact ModelNames.exists_ref_of_optionalFragment? hfragment

/-- In an object whose properties have different names, each property is there and is required by
its own rule. -/
theorem mem_properties_and_required_iff (htype : (decl.schema names).type = some "object")
    (hnodup : (decl.properties.filterMap PropertyDecl.name).Nodup) {p : PropertyDecl}
    (hp : p ∈ decl.properties) {name : String} (hname : p.name = some name) :
    (name, p.fragment names) ∈ (decl.schema names).properties ∧
      (name ∈ (decl.schema names).required ↔ p.IsRequired names) := by
  rw [← memberNames_named_builtProperties names] at hnodup
  have hpart := mem_named_builtProperties names hp hname
  constructor
  · rw [properties_schema htype, collectMembers_eq_self (by rwa [memberNames_mapMembers])]
    exact List.mem_map_of_mem hpart
  · rw [required_schema htype, withoutRepeats, List.mem_eraseDups, Schema.mem_requiredNames_iff]
    constructor
    · rintro ⟨q, hq, hqname, hqrequired⟩
      -- the name belongs to one part only
      have hother : (name, q) ∈ BuiltProperty.named (builtProperties names decl.properties) :=
        List.mem_filterMap.mpr ⟨q, hq, by rw [hqname]; rfl⟩
      rw [← getMember?_eq_some_iff hnodup] at hpart hother
      rw [Option.some.inj (hother.symm.trans hpart)] at hqrequired
      exact hqrequired
    · intro h
      refine ⟨p.built names, ?_, hname, h⟩
      rw [builtProperties_eq_map]
      exact List.mem_map_of_mem hp

/-- The fragment of a declaration is what the declaration says. -/
theorem suits_fragment (decl : ShapeDecl) : (decl.fragment names).Suits decl where
  reference := decl.exists_ref_iff
  inShape schema h := by
    rw [(eq_schema_of_inline h.symm).2]
    exact decl.inShape_schema
  required schema h htype hnodup p hp name hname := by
    obtain ⟨-, rfl⟩ := eq_schema_of_inline h.symm
    obtain ⟨hpart, hrequired⟩ := mem_properties_and_required_iff htype hnodup hp hname
    exact ⟨p.fragment names, hpart, hrequired.trans p.isRequired_iff⟩

end ShapeDecl

/-! ## All nodes -/

/-- The fragment of declared elements. -/
theorem ItemsDecl.fragment_eq_shape (decl : ItemsDecl) :
    decl.fragment names = decl.shape.fragment names := by
  cases decl
  rw [ItemsDecl.fragment]
  rfl

/-- The fragment of a declared property. -/
theorem PropertyDecl.fragment_eq_shape (decl : PropertyDecl) :
    decl.fragment names = decl.shape.fragment names :=
  decl.fragment_eq

/-- The fragment of a declared schema that does not list what is required. -/
theorem SchemaDecl.fragment_eq_shape {decl : SchemaDecl} (h : decl.required = none) :
    decl.fragment names = decl.shape.fragment names := by
  rw [SchemaDecl.fragment, h]
  rfl

/-- The object that has declared properties. -/
theorem objectOfProperties_eq_shape (properties : List PropertyDecl) :
    objectOfProperties names properties = (ShapeDecl.object properties).fragment names := by
  rfl

namespace ShapeDecl

variable {decl : ShapeDecl}

/-- The elements of a schema are made of the declaration that they lead to. -/
theorem exists_child_items {items : Fragment} (h : items ∈ (decl.schema names).items) :
    ∃ child, decl.child? .items = some child ∧ items = child.fragment names := by
  rw [Schema.eq_of_mem_items_shape rfl h, child?]
  cases decl.items with
  | none => exact ⟨text, rfl, rfl⟩
  | some inner =>
      refine ⟨inner.shape, rfl, ?_⟩
      rw [fragmentOfItems, ← inner.fragment_eq_shape]
      rfl

/-- A property of a schema is made of the declaration that it leads to. -/
theorem exists_child_property {name : String} {part : Fragment}
    (h : (name, part) ∈ (decl.schema names).properties) :
    ∃ child, decl.child? (.property name) = some child ∧ part = child.fragment names := by
  have htype : (decl.schema names).type = some "object" :=
    decl.inShape_schema.properties (List.ne_nil_of_mem h)
  rw [properties_schema htype, ← getMember?_eq_some_iff (nodup_collectMembers _),
    getMember?_collectMembers, filter_named_builtProperties, List.getLast?_map, Option.map_map,
    Option.map_eq_some_iff] at h
  obtain ⟨p, hp, hfragment⟩ := h
  refine ⟨p.shape, ?_, ?_⟩
  · rw [child?, hp]
    rfl
  · rw [← hfragment, ← p.fragment_eq_shape]
    rfl

/-- Every node of the fragment of a declaration is the fragment of the declaration at its path. -/
theorem exists_at_of_hasNode {fragment node : Fragment} {path : List SchemaStep}
    (h : fragment.HasNode path node) (hfragment : fragment = decl.fragment names) :
    ∃ inner, decl.at? path = some inner ∧ node = inner.fragment names := by
  induction h generalizing decl with
  | self fragment => exact ⟨decl, rfl, hfragment⟩
  | items h within ih =>
      obtain ⟨-, rfl⟩ := eq_schema_of_inline hfragment
      obtain ⟨child, hchild, hitems⟩ := exists_child_items h
      obtain ⟨inner, hinner, hnode⟩ := ih hitems
      refine ⟨inner, ?_, hnode⟩
      rw [at?, hchild]
      exact hinner
  | property h within ih =>
      obtain ⟨-, rfl⟩ := eq_schema_of_inline hfragment
      obtain ⟨child, hchild, hproperty⟩ := exists_child_property h
      obtain ⟨inner, hinner, hnode⟩ := ih hproperty
      refine ⟨inner, ?_, hnode⟩
      rw [at?, hchild]
      exact hinner

/-- The fragment of a declaration follows it. -/
theorem follows_fragment (decl : ShapeDecl) : (decl.fragment names).Follows decl := by
  intro path node hnode
  obtain ⟨inner, hinner, rfl⟩ := exists_at_of_hasNode hnode rfl
  exact ⟨inner, hinner, inner.suits_fragment⟩

end ShapeDecl

/-- The fragments of declared properties and elements, of lists of properties, and of declared
schemas that do not list what is required follow their declarations, at every depth. -/
theorem Fragment.follows_declaration (names : ModelNames) :
    (∀ decl : PropertyDecl, (decl.fragment names).Follows decl.shape) ∧
      (∀ decl : ItemsDecl, (decl.fragment names).Follows decl.shape) ∧
      (∀ properties : List PropertyDecl,
        (objectOfProperties names properties).Follows (.object properties)) ∧
      ∀ decl : SchemaDecl, decl.required = none →
        (decl.fragment names).Follows decl.shape := by
  refine ⟨fun decl => ?_, fun decl => ?_, fun properties => ?_, fun decl h => ?_⟩
  · rw [decl.fragment_eq_shape]
    exact decl.shape.follows_fragment
  · rw [decl.fragment_eq_shape]
    exact decl.shape.follows_fragment
  · rw [objectOfProperties_eq_shape]
    exact (ShapeDecl.object properties).follows_fragment
  · rw [SchemaDecl.fragment_eq_shape h]
    exact decl.shape.follows_fragment

/-- An order: its buyer, and its lines, of which neither the type nor that of their elements is
declared. -/
def orderSchema : SchemaDecl where
  title := some "Order"
  properties := [
    .mk (some "buyer") { reference := some "User" } none none [],
    .mk (some "lines") {} none (some (.mk {} none [
      .mk (some "sku") {} none none [],
      .mk (some "note") { nullable := some true } none none []])) []]

/-- The schema of the lines of an order. -/
def orderLine : Schema where
  type := some "object"
  properties := [
    ("sku", .inline (.typed "string")),
    ("note", .inline { Schema.typed "string" with nullable := some true })]
  required := ["sku"]

/-- The lines of an order are an array of objects that require one of their two properties. -/
theorem Fragment.follows_declaration_orderSchema :
    orderSchema.required = none ∧ (orderSchema.fragment {}).Follows orderSchema.shape ∧
      (orderSchema.fragment {}).HasNode [.property "lines", .items] (.inline orderLine) := by
  refine ⟨rfl, (Fragment.follows_declaration {}).2.2.2 orderSchema rfl, ?_⟩
  have hfragment : orderSchema.fragment {} = .inline {
      type := some "object"
      title := some "Order"
      properties := [
        ("buyer", .ref "#/components/schemas/User"),
        ("lines", .inline (.arrayOf (.inline orderLine)))]
      required := ["buyer"] } := rfl
  rw [hfragment]
  exact .property (List.mem_cons_of_mem _ List.mem_cons_self) (.items rfl (.self _))

end AnnotatedApi
