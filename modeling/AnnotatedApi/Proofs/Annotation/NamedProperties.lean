import Mathlib.Data.List.Permutation
import AnnotatedApi.Proofs.Annotation.Entries
import AnnotatedApi.Proofs.Annotation.Lawful

/-! # The properties of annotations have names

A property is declared by an entry, which names it, however deep in an annotation the entry stands.
No declaration is left out for want of a name when a list of properties becomes an object: every
name is there, in the order in which names are first seen, and the last declaration of a name
counts. -/

namespace AnnotatedApi

/-! ## Nested declarations -/

namespace ShapeDecl

/-- A declaration nests another one, at any depth: it is that of its elements, or of one of its
properties, or of what these nest. -/
inductive Nests : ShapeDecl → ShapeDecl → Prop
  | self (decl : ShapeDecl) : Nests decl decl
  | items {decl inner : ShapeDecl} {items : ItemsDecl} (h : items ∈ decl.items)
      (within : Nests items.shape inner) : Nests decl inner
  | property {decl inner : ShapeDecl} {p : PropertyDecl} (h : p ∈ decl.properties)
      (within : Nests p.shape inner) : Nests decl inner

/-- Some arguments spell the declaration. -/
def IsSpelled (decl : ShapeDecl) : Prop :=
  ∃ args, decl.SpelledBy args

namespace IsSpelled

variable {decl inner : ShapeDecl}

/-- Some entry declares the property. -/
theorem exists_declaredBy (h : decl.IsSpelled) {p : PropertyDecl} (hp : p ∈ decl.properties) :
    ∃ entry, PropertyDecl.DeclaredBy entry p := by
  obtain ⟨args, -, hproperties⟩ := h
  generalize propertyEntries args = entries, decl.properties = properties at hproperties hp
  induction hproperties with
  | nil => exact absurd hp List.not_mem_nil
  | @cons entry _ _ _ hentry _ ih =>
      rcases List.mem_cons.mp hp with rfl | hrest
      · exact ⟨entry, hentry⟩
      · exact ih hrest

/-- What a spelled declaration nests is spelled. -/
theorem of_nests (h : decl.IsSpelled) (hnests : decl.Nests inner) : inner.IsSpelled := by
  induction hnests with
  | self => exact h
  | items hitems _ ih =>
      obtain ⟨_, hspelled⟩ := h
      obtain ⟨args, hread⟩ := hspelled.items _ hitems
      exact ih ⟨args, ItemsDecl.spelledBy_ofArgs args _ hread⟩
  | property hp _ ih =>
      obtain ⟨entry, hentry⟩ := h.exists_declaredBy hp
      obtain ⟨args, own, hread, hshape⟩ := hentry.exists_ofArgs
      rw [hshape] at ih
      exact ih ⟨args, PropertyDecl.spelledBy_ofArgs args _ hread⟩

end IsSpelled

end ShapeDecl

/-! ## The declarations of an annotation -/

/-- The schema that a media type declares, if any. -/
def MediaTypeDecl.shapes (decl : MediaTypeDecl) : List ShapeDecl :=
  decl.schema.toList.map SchemaDecl.shape

/-- The schema that a parameter declares, if any. -/
def ParameterDecl.shapes (decl : ParameterDecl) : List ShapeDecl :=
  decl.schema.toList.map SchemaDecl.shape

/-- The declarations of schemas that an annotation holds directly. -/
def Annotation.shapes : Annotation → List ShapeDecl
  | .schema decl => [decl.shape]
  | .property decl => [decl.shape]
  | .items decl => [decl.shape]
  | .parameter decl => decl.shapes
  | .requestBody decl => decl.shape :: decl.content.flatMap MediaTypeDecl.shapes
  | .response decl => decl.shape :: decl.content.flatMap MediaTypeDecl.shapes
  | .mediaType decl => decl.shapes
  | .operation _ => []
  | .apiGroup _ => []
  | .security _ => []
  | .hidden => []
  | .relationship _ => []

/-- The schema that an argument declares is spelled. -/
theorem Arg.isSpelled_asSchema (arg : Arg) :
    Gives (fun decl => decl.shape.IsSpelled) arg.asSchema := by
  rw [asSchema]
  split
  · next args _ => exact fun decl hdecl => ⟨args, SchemaDecl.spelledBy_ofArgs args decl hdecl⟩
  · exact Gives.any.bind fun _ _ => .ok ⟨[], .nil rfl rfl⟩

/-- The schema of a media type is spelled. -/
theorem MediaTypeDecl.isSpelled_ofArgs (args : List Arg) :
    Gives (fun decl => ∀ shape ∈ decl.shapes, shape.IsSpelled) (ofArgs args) := by
  have hdraft : Gives (fun draft : Draft => ∀ schema ∈ draft.schema, schema.shape.IsSpelled)
      (applyArgs apply {} args) := by
    refine gives_applyArgs forall_mem_none (fun draft h arg => ?_) args
    rw [apply]
    split
    all_goals try exact Gives.any.bind fun _ _ => .ok h
    · exact arg.isSpelled_asSchema.bind fun schema hschema => .ok (forall_mem_some hschema)
    · exact .ok h
    · exact .error
  refine hdraft.bind fun draft h => ?_
  split
  · refine .ok ?_
    simpa [shapes] using h
  · exact .error

/-- The schemas of listed media types are spelled. -/
theorem Arg.isSpelled_asMediaTypes (arg : Arg) :
    Gives (fun decls => ∀ shape ∈ decls.flatMap MediaTypeDecl.shapes, shape.IsSpelled)
      arg.asMediaTypes := by
  have hdecls : Gives (fun decls => ∀ decl ∈ decls, ∀ shape ∈ decl.shapes, shape.IsSpelled)
      arg.asMediaTypes := by
    refine Gives.any.bind fun args _ => Gives.mapM fun entry _ => ?_
    split
    · exact Gives.any.bind fun args _ => MediaTypeDecl.isSpelled_ofArgs args
    · exact .error
  intro decls hread shape hshape
  obtain ⟨decl, hdecl, hshape⟩ := List.mem_flatMap.mp hshape
  exact hdecls decls hread decl hdecl shape hshape

/-- The schema of a parameter is spelled; keywords that are given directly do not touch its
properties. -/
theorem ParameterDecl.isSpelled_ofArgs (args : List Arg) :
    Gives (fun decl => ∀ shape ∈ decl.shapes, shape.IsSpelled) (ofArgs args) := by
  have hdraft : Gives (fun draft : Draft => ∀ schema ∈ draft.schema, schema.shape.IsSpelled)
      (applyArgs apply {} args) := by
    refine gives_applyArgs forall_mem_none (fun draft h arg => ?_) args
    rw [apply]
    split
    all_goals try exact Gives.any.bind fun _ _ => .ok h
    · exact arg.isSpelled_asSchema.bind fun schema hschema => .ok (forall_mem_some hschema)
    · exact .ok h
    · split
      · refine Gives.any.bind fun shortcuts? _ => ?_
        cases shortcuts? <;> exact .ok h
      · exact .error
  refine hdraft.bind fun draft h => ?_
  split
  · exact .error
  · exact .error
  · refine .ok ?_
    have hfinal : ∀ schema ∈ draft.finalSchema, schema.shape.IsSpelled := by
      rw [Draft.finalSchema]
      split
      · refine forall_mem_some ?_
        cases hdraft : draft.schema with
        | none => exact ⟨[], .nil rfl rfl⟩
        | some schema =>
            obtain ⟨args, hspelled⟩ := h schema hdraft
            exact ⟨args, hspelled.items, hspelled.properties⟩
      · exact h
    simpa [shapes] using hfinal

/-- The content of a request body is spelled. -/
theorem RequestBodyDecl.isSpelled_content (args : List Arg) :
    Gives (fun decl => ∀ shape ∈ decl.content.flatMap MediaTypeDecl.shapes, shape.IsSpelled)
      (ofArgs args) := by
  refine gives_applyArgs (List.forall_mem_nil _) (fun decl h arg => ?_) args
  rw [apply]
  split
  all_goals try exact Gives.any.bind fun _ _ => .ok h
  · refine arg.isSpelled_asMediaTypes.bind fun more hmore => .ok ?_
    rw [List.flatMap_append, List.forall_mem_append]
    exact ⟨h, hmore⟩
  · exact .error

/-- The content of a response is spelled. -/
theorem ResponseDecl.isSpelled_content (args : List Arg) :
    Gives (fun decl => ∀ shape ∈ decl.content.flatMap MediaTypeDecl.shapes, shape.IsSpelled)
      (ofArgs args) := by
  refine gives_applyArgs (List.forall_mem_nil _) (fun decl h arg => ?_) args
  rw [apply]
  split
  all_goals try exact Gives.any.bind fun _ _ => .ok h
  · refine arg.isSpelled_asMediaTypes.bind fun more hmore => .ok ?_
    rw [List.flatMap_append, List.forall_mem_append]
    exact ⟨h, hmore⟩
  · exact .error

/-- The declarations that an annotation holds are spelled. -/
theorem Annotation.isSpelled_ofArgs (kind : String) (args : List Arg) :
    Gives (fun found => ∀ shape ∈ found.shapes, shape.IsSpelled) (ofArgs kind args) := by
  unfold ofArgs
  split
  · exact (SchemaDecl.spelledBy_ofArgs args).map fun decl h =>
      List.forall_mem_singleton.mpr ⟨args, h⟩
  · exact (PropertyDecl.spelledBy_ofArgs args).map fun decl h =>
      List.forall_mem_singleton.mpr ⟨args, h⟩
  · exact (ItemsDecl.spelledBy_ofArgs args).map fun decl h =>
      List.forall_mem_singleton.mpr ⟨args, h⟩
  · exact Gives.any.map fun _ _ => List.forall_mem_nil _
  · exact (ParameterDecl.isSpelled_ofArgs args).map fun _ h => h
  · exact ((RequestBodyDecl.spelledBy_ofArgs args).and (RequestBodyDecl.isSpelled_content args)).map
      fun decl h => List.forall_mem_cons.mpr ⟨⟨args, h.1⟩, h.2⟩
  · exact ((ResponseDecl.spelledBy_ofArgs args).and (ResponseDecl.isSpelled_content args)).map
      fun decl h => List.forall_mem_cons.mpr ⟨⟨args, h.1⟩, h.2⟩
  · exact (MediaTypeDecl.isSpelled_ofArgs args).map fun _ h => h
  · exact Gives.any.map fun _ _ => List.forall_mem_nil _
  · exact Gives.any.map fun _ _ => List.forall_mem_nil _
  · exact Gives.any.map fun _ _ => List.forall_mem_nil _
  · split
    · exact .ok (List.forall_mem_nil _)
    · exact .error
  · exact Gives.any.map fun _ _ => List.forall_mem_nil _
  · exact .error

/-! ## Objects of declared properties -/

/-- The fragment is the object of declared properties: each of them has a name, which is a key of
the object; the keys are in the order in which names are first seen, and under each of them is the
fragment of the last property of this name. -/
def Fragment.IsObjectOf (names : ModelNames) (properties : List PropertyDecl)
    (fragment : Fragment) : Prop :=
  ∃ schema keys, fragment = .inline schema ∧ schema.type = some "object" ∧
    properties.map PropertyDecl.name = keys.map some ∧
    FirstSeen keys (memberNames schema.properties) ∧
    ∀ key, getMember? key schema.properties =
      ((properties.filter fun p => p.name = some key).getLast?).map (PropertyDecl.fragment names)

/-- Properties that all have names are named one by one. -/
theorem PropertyDecl.map_name {properties : List PropertyDecl}
    (h : ∀ p ∈ properties, ∃ name, p.name = some name) :
    properties.map name = (properties.filterMap name).map some := by
  induction properties with
  | nil => rfl
  | cons p rest ih =>
      obtain ⟨⟨name, hname⟩, hrest⟩ := List.forall_mem_cons.mp h
      rw [List.map_cons, List.filterMap_cons_some hname, List.map_cons, hname, ih hrest]

/-- Properties that all have names make up an object. -/
theorem isObjectOf_objectOfProperties (names : ModelNames) {properties : List PropertyDecl}
    (h : ∀ p ∈ properties, ∃ name, p.name = some name) :
    (objectOfProperties names properties).IsObjectOf names properties := by
  have htype : ((ShapeDecl.object properties).schema names).type = some "object" :=
    ShapeDecl.type_schema _
  have hproperties := ShapeDecl.properties_schema htype
  refine ⟨(ShapeDecl.object properties).schema names, properties.filterMap PropertyDecl.name, rfl,
    htype, ?_, ?_, fun key => ?_⟩
  · exact PropertyDecl.map_name h
  · rw [hproperties, ← memberNames_named_builtProperties names, ← memberNames_mapMembers]
    exact firstSeen_collectMembers _
  · rw [hproperties, getMember?_collectMembers, filter_named_builtProperties, List.getLast?_map,
      Option.map_map]
    rfl

/-! ## Properties of annotations -/

/-- A reader keeps the properties that entries declare, one for each entry and in their order. -/
def KeepsEntries (read : List Arg → Except AnnotationError α) (properties : α → List PropertyDecl) :
    Prop :=
  ∀ args decl, read args = .ok decl →
    List.Forall₂ PropertyDecl.DeclaredBy (propertyEntries args) (properties decl)

/-- Every property that is declared in an annotation has a name, at any depth, and every list of
properties in it makes up an object of all of them. The readers of such lists keep one property for
each entry. -/
theorem Annotation.properties_named_and_kept :
    (∀ kind args found, Annotation.ofArgs kind args = .ok found →
      ∀ outer ∈ found.shapes, ∀ decl, outer.Nests decl →
        (∀ p ∈ decl.properties, ∃ name, p.name = some name) ∧
        ∀ names, (objectOfProperties names decl.properties).IsObjectOf names decl.properties) ∧
      KeepsEntries SchemaDecl.ofArgs SchemaDecl.properties ∧
      KeepsEntries PropertyDecl.ofArgs PropertyDecl.properties ∧
      KeepsEntries ItemsDecl.ofArgs ItemsDecl.properties ∧
      KeepsEntries RequestBodyDecl.ofArgs RequestBodyDecl.properties ∧
      KeepsEntries ResponseDecl.ofArgs ResponseDecl.properties := by
  refine ⟨fun kind args found h outer houter decl hnests => ?_,
    fun args decl h => (SchemaDecl.spelledBy_ofArgs args decl h).properties,
    fun args decl h => (PropertyDecl.spelledBy_ofArgs args decl h).properties,
    fun args decl h => (ItemsDecl.spelledBy_ofArgs args decl h).properties,
    fun args decl h => (RequestBodyDecl.spelledBy_ofArgs args decl h).properties,
    fun args decl h => (ResponseDecl.spelledBy_ofArgs args decl h).properties⟩
  have hspelled := (isSpelled_ofArgs kind args found h outer houter).of_nests hnests
  have hnamed : ∀ p ∈ decl.properties, ∃ name, p.name = some name := fun p hp =>
    (hspelled.exists_declaredBy hp).elim fun _ hentry => hentry.exists_name
  exact ⟨hnamed, fun names => isObjectOf_objectOfProperties names hnamed⟩

/-- Arguments of a response with an identifier that is declared twice, and an owner who has an
address. -/
def ownedArgs : List Arg :=
  [("properties", .list [
     ("id", .list [("type", .text "integer")]),
     ("property", .list [("name", .text "owner"),
       ("properties", .list [("mail", .list [("format", .text "email")])])])]),
   ("properties", .list [("id", .list [("type", .text "string")])])]

/-- The response that they spell. -/
def ownedResponse : ResponseDecl where
  status := "200"
  properties := [
    .mk (some "id") { type := some "integer" } none none [],
    .mk (some "owner") {} none none [.mk (some "mail") { format := some "email" } none none []],
    .mk (some "id") { type := some "string" } none none []]

/-- Its object has an identifier and an owner, and the identifier is a text. -/
theorem Annotation.properties_named_and_kept_ownedArgs :
    Annotation.ofArgs "response" ownedArgs = .ok (.response ownedResponse) ∧
      (objectOfProperties {} ownedResponse.properties).IsObjectOf {} ownedResponse.properties ∧
      List.Forall₂ PropertyDecl.DeclaredBy (propertyEntries ownedArgs)
        ownedResponse.properties := by
  have hread : Annotation.ofArgs "response" ownedArgs = .ok (.response ownedResponse) := by cbv
  obtain ⟨hnamed, -, -, -, -, hkept⟩ := properties_named_and_kept
  refine ⟨hread, ?_, hkept ownedArgs ownedResponse (by cbv)⟩
  exact (hnamed "response" ownedArgs _ hread _ List.mem_cons_self _ (.self _)).2 {}

end AnnotatedApi
