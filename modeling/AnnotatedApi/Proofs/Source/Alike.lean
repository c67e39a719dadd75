import AnnotatedApi.Proofs.Annotation.Inert
import Mathlib.Data.List.Forall2

/-! # Source files that say the same

Two indexes are alike when their entries are, one by one: they have the same names, kinds and
traits, and their attributes, those of their methods and those of their fields differ in malformed
attributes only. Every step that fills an index keeps alike what is alike, and what is found by a
name in indexes that are alike is alike. -/

namespace AnnotatedApi.Source

/-! ## What is alike -/

/-- Functions that say the same. -/
structure FunctionItem.Alike (f f' : FunctionItem) : Prop where
  name : f'.name = f.name
  attrs : Padded f.attrs f'.attrs

/-- Fields that say the same. -/
structure Field.Alike (f f' : Field) : Prop where
  name : f'.name = f.name
  type : f'.type = f.type
  attrs : Padded f.attrs f'.attrs

/-- Definitions of structs that say the same, their own attributes aside. -/
structure StructItem.Alike (item item' : StructItem) : Prop where
  isGeneric : item'.isGeneric = item.isGeneric
  fields : List.Forall₂ Field.Alike item.fields item'.fields

/-- Entries that say the same, except for marks on those entries that may get one. -/
structure TypeEntry.Alike (mayMark : String → Prop) (entry entry' : TypeEntry) : Prop where
  qualifiedName : entry'.qualifiedName = entry.qualifiedName
  name : entry'.name = entry.name
  kind : entry'.kind = entry.kind
  traits : entry'.traits = entry.traits
  attrs : AttrsAlike (mayMark entry.qualifiedName) entry.attrs entry'.attrs
  methods : List.Forall₂ FunctionItem.Alike entry.methods entry'.methods
  item : Option.Rel StructItem.Alike entry.item entry'.item

/-- Implementation blocks that say the same of the same type. -/
structure PlacedImpl.Alike (placed placed' : PlacedImpl) : Prop where
  modulePath : placed'.modulePath = placed.modulePath
  typeName : placed'.typeName = placed.typeName
  traitName : placed'.item.traitName = placed.item.traitName
  attrs : AttrsAlike False placed.item.attrs placed'.item.attrs
  methods : List.Forall₂ FunctionItem.Alike placed.item.methods placed'.item.methods

/-- Attributes of one module that say the same. -/
structure DeclaredAlike (declared declared' : String × List Attribute) : Prop where
  name : declared'.1 = declared.1
  attrs : AttrsAlike False declared.2 declared'.2

/-- Definitions that say the same. -/
structure Definitions.Alike (mayMark : String → Prop) (definitions definitions' : Definitions) :
    Prop where
  entries : List.Forall₂ (TypeEntry.Alike mayMark) definitions.entries definitions'.entries
  impls : List.Forall₂ PlacedImpl.Alike definitions.impls definitions'.impls
  moduleAttrs : List.Forall₂ DeclaredAlike definitions.moduleAttrs definitions'.moduleAttrs

/-- Indexes that say the same. -/
def Index.Alike (mayMark : String → Prop) (index index' : Index) : Prop :=
  List.Forall₂ (TypeEntry.Alike mayMark) index.entries index'.entries

variable {mayMark : String → Prop}

/-- A function says the same as itself. -/
theorem FunctionItem.Alike.refl (f : FunctionItem) : f.Alike f :=
  ⟨rfl, .refl _⟩

/-- A field says the same as itself. -/
theorem Field.Alike.refl (f : Field) : f.Alike f :=
  ⟨rfl, rfl, .refl _⟩

/-- Functions say the same as themselves. -/
theorem functionsAlike_refl (functions : List FunctionItem) :
    List.Forall₂ FunctionItem.Alike functions functions :=
  List.forall₂_same.mpr fun f _ => .refl f

/-- The definition of a struct says the same as itself. -/
theorem StructItem.Alike.refl (item : StructItem) : item.Alike item :=
  ⟨rfl, List.forall₂_same.mpr fun f _ => .refl f⟩

/-- An entry says the same as itself. -/
theorem TypeEntry.Alike.refl (entry : TypeEntry) : entry.Alike mayMark entry := by
  refine ⟨rfl, rfl, rfl, rfl, .refl _, functionsAlike_refl _, ?_⟩
  cases entry.item with
  | none => exact .none
  | some item => exact .some (.refl item)

/-- Definitions say the same as themselves. -/
theorem Definitions.Alike.refl (definitions : Definitions) :
    definitions.Alike mayMark definitions :=
  ⟨List.forall₂_same.mpr fun entry _ => .refl entry,
    List.forall₂_same.mpr fun _ _ => ⟨rfl, rfl, rfl, .refl _, functionsAlike_refl _⟩,
    List.forall₂_same.mpr fun _ _ => ⟨rfl, .refl _⟩⟩

/-- What is alike stays alike one after the other. -/
theorem Definitions.Alike.append {a a' b b' : Definitions} (ha : a.Alike mayMark a')
    (hb : b.Alike mayMark b') : (a.append b).Alike mayMark (a'.append b') :=
  ⟨List.rel_append ha.entries hb.entries, List.rel_append ha.impls hb.impls,
    List.rel_append ha.moduleAttrs hb.moduleAttrs⟩

/-! ## Items -/

/-- The functions of items stand one after the other. -/
theorem functionsOf_append (items others : List Item) :
    functionsOf (items ++ others) = functionsOf items ++ functionsOf others :=
  List.filterMap_append

/-- The definitions of items stand one after the other. -/
theorem definitionsOf_append (modulePath path : String) (items others : List Item) :
    definitionsOf modulePath path (items ++ others) =
      (definitionsOf modulePath path items).append (definitionsOf modulePath path others) := by
  induction items with
  | nil => simp [definitionsOf, Definitions.append]
  | cons item rest ih => simp [definitionsOf, Definitions.append, ih]

/-- Items of which one changes into one with functions alike have functions alike. -/
theorem functionsOf_alike {item item' : Item} (front back : List Item)
    (h : List.Forall₂ FunctionItem.Alike (functionsOf [item]) (functionsOf [item'])) :
    List.Forall₂ FunctionItem.Alike (functionsOf (front ++ item :: back))
      (functionsOf (front ++ item' :: back)) := by
  have hcons : ∀ x, functionsOf (front ++ x :: back) =
      functionsOf front ++ (functionsOf [x] ++ functionsOf back) := fun x => by
    rw [functionsOf_append, ← List.singleton_append, functionsOf_append]
  rw [hcons, hcons]
  exact List.rel_append (functionsAlike_refl _) (List.rel_append h (functionsAlike_refl _))

/-- Items of which one changes into one that defines the same define the same. -/
theorem definitionsOf_alike {item item' : Item} {modulePath path : String} (front back : List Item)
    (h : (item.definitions modulePath path).Alike mayMark (item'.definitions modulePath path)) :
    (definitionsOf modulePath path (front ++ item :: back)).Alike mayMark
      (definitionsOf modulePath path (front ++ item' :: back)) := by
  rw [definitionsOf_append, definitionsOf_append, definitionsOf, definitionsOf]
  exact (Definitions.Alike.refl _).append (h.append (.refl _))

/-- What is in a module and the entry of the module itself define the same, when its attributes and
its functions are alike. -/
theorem Definitions.Alike.withModule {inner inner' : Definitions} (h : inner.Alike mayMark inner')
    {attrs attrs' : List Attribute} {functions functions' : List FunctionItem}
    (modulePath path : String) (hattrs : AttrsAlike False attrs attrs')
    (hfunctions : List.Forall₂ FunctionItem.Alike functions functions') :
    Definitions.Alike mayMark
      { inner with entries := inner.entries ++ [moduleEntry modulePath path attrs functions] }
      { inner' with
        entries := inner'.entries ++ [moduleEntry modulePath path attrs' functions'] } :=
  ⟨List.rel_append h.entries
      (.cons ⟨rfl, rfl, rfl, rfl, hattrs.mono, hfunctions, .none⟩ .nil),
    h.impls, h.moduleAttrs⟩

/-- The implementation blocks of an item, one or none, are alike when the items are. -/
theorem placed_alike {item item' : ImplItem} {modulePath path : String}
    (hself : item'.selfType = item.selfType) (htrait : item'.traitName = item.traitName)
    (hattrs : AttrsAlike False item.attrs item'.attrs)
    (hmethods : List.Forall₂ FunctionItem.Alike item.methods item'.methods) :
    List.Forall₂ PlacedImpl.Alike (item.placed modulePath path)
      (item'.placed modulePath path) := by
  rw [ImplItem.placed, ImplItem.placed, hself]
  split
  · exact .cons ⟨rfl, rfl, htrait, hattrs, hmethods⟩ .nil
  · exact .nil

/-! ## Steps that fill an index -/

namespace Index

variable {index index' : Index}

/-- What is read off lists first is alike. -/
theorem rel_findSome? {R : α → α → Prop} {S : β → β → Prop} {list list' : List α}
    {read read' : α → Option β} (h : List.Forall₂ R list list')
    (hread : ∀ x y, R x y → Option.Rel S (read x) (read' y)) :
    Option.Rel S (list.findSome? read) (list'.findSome? read') := by
  induction h with
  | nil => exact .none
  | @cons x y _ _ hxy _ ih =>
      rw [List.findSome?_cons, List.findSome?_cons]
      have hfirst := hread x y hxy
      generalize read x = found at hfirst ⊢
      generalize read' y = found' at hfirst ⊢
      cases hfirst with
      | none => exact ih
      | some hfound => exact .some hfound

/-- What is found in lists by tests that agree is alike. -/
theorem rel_find? {R : α → α → Prop} {list list' : List α} {p q : α → Bool}
    (h : List.Forall₂ R list list') (htest : ∀ x y, R x y → q y = p x) :
    Option.Rel R (list.find? p) (list'.find? q) := by
  rw [← List.findSome?_guard, ← List.findSome?_guard]
  refine rel_findSome? h fun x y hxy => ?_
  rw [Option.guard, Option.guard, htest x y hxy]
  cases p x with
  | true => exact .some hxy
  | false => exact .none

/-- The entries of one qualified name are alike. -/
theorem Alike.get? (h : index.Alike mayMark index') (name : String) :
    Option.Rel (TypeEntry.Alike mayMark) (index.get? name) (index'.get? name) :=
  rel_find? h fun _ _ hentry => by rw [hentry.qualifiedName]

/-- A value that is read off what is found is the same in both, when it is so for what is alike. -/
theorem map_eq_of_rel {R : α → α → Prop} {found found' : Option α} (h : Option.Rel R found found')
    {read : α → β} (hread : ∀ x y, R x y → read y = read x) : found'.map read = found.map read := by
  cases h with
  | none => rfl
  | some hxy => exact congrArg some (hread _ _ hxy)

/-- A name is taken in both or in none. -/
theorem Alike.isSome_get? (h : index.Alike mayMark index') (name : String) :
    (index'.get? name).isSome = (index.get? name).isSome := by
  have hmap := map_eq_of_rel (h.get? name) fun _ _ hentry => hentry.qualifiedName
  rw [← Option.isSome_map, hmap, Option.isSome_map]

/-- Inserting entries that are alike. -/
theorem Alike.insert (h : index.Alike mayMark index') {entry entry' : TypeEntry}
    (hentry : entry.Alike mayMark entry') :
    (index.insert entry).Alike mayMark (index'.insert entry') := by
  rw [Index.insert, Index.insert, hentry.qualifiedName, h.isSome_get?]
  split
  · exact h
  · exact List.rel_append h (.cons hentry .nil)

/-- Changing the entries of one name in ways that are alike. -/
theorem Alike.modify (h : index.Alike mayMark index') (name : String)
    {change change' : TypeEntry → TypeEntry}
    (hchange : ∀ entry entry', entry.Alike mayMark entry' →
      (change entry).Alike mayMark (change' entry')) :
    (index.modify name change).Alike mayMark (index'.modify name change') := by
  refine List.rel_map ?_ h
  intro entry entry' hentry
  dsimp only
  rw [hentry.qualifiedName]
  split
  · exact hchange entry entry' hentry
  · exact hentry

/-- Implementation blocks that are alike belong to one name. -/
theorem Alike.implTarget? (h : index.Alike mayMark index') {placed placed' : PlacedImpl}
    (hplaced : placed.Alike placed') : index'.implTarget? placed' = index.implTarget? placed := by
  have hfound := rel_find? (p := fun e => e.kind == .struct && e.name == placed.typeName)
    (q := fun e => e.kind == .struct && e.name == placed.typeName) h
    fun _ _ hentry => by rw [hentry.kind, hentry.name]
  simp only [Index.implTarget?, hplaced.modulePath, hplaced.typeName, h.isSome_get?]
  rw [map_eq_of_rel hfound fun _ _ hentry => hentry.qualifiedName]

/-- Extending entries that are alike by implementation blocks that are alike. -/
theorem extendBy_alike {placed placed' : PlacedImpl} (hplaced : placed.Alike placed')
    {entry entry' : TypeEntry} (h : entry.Alike mayMark entry') :
    (extendBy placed.item entry).Alike mayMark (extendBy placed'.item entry') := by
  have hmethods := List.rel_append h.methods hplaced.methods
  rw [extendBy, extendBy, hplaced.traitName]
  split
  · exact ⟨h.qualifiedName, h.name, h.kind, by rw [h.traits], h.attrs, hmethods, h.item⟩
  · exact ⟨h.qualifiedName, h.name, h.kind, h.traits, h.attrs.append hplaced.attrs.mono, hmethods,
      h.item⟩

/-- Attaching implementation blocks that are alike. -/
theorem Alike.attach (h : index.Alike mayMark index') {placed placed' : PlacedImpl}
    (hplaced : placed.Alike placed') :
    (index.attach placed).Alike mayMark (index'.attach placed') := by
  rw [Index.attach, Index.attach, h.implTarget? hplaced]
  split
  · exact h.modify _ fun _ _ hentry => extendBy_alike hplaced hentry
  -- no entry has the name yet: one is made up that holds the block only
  · refine h.insert (extendBy_alike hplaced ?_)
    rw [hplaced.modulePath, hplaced.typeName]
    exact ⟨rfl, rfl, rfl, rfl, .refl _, .nil, .none⟩

/-- Putting attributes that are alike in front. -/
theorem Alike.prependAttrs (h : index.Alike mayMark index')
    {declared declared' : String × List Attribute} (hdeclared : DeclaredAlike declared declared') :
    (index.prependAttrs declared).Alike mayMark (index'.prependAttrs declared') := by
  rw [Index.prependAttrs, Index.prependAttrs, hdeclared.name]
  refine h.modify _ fun entry entry' hentry => ?_
  exact ⟨hentry.qualifiedName, hentry.name, hentry.kind, hentry.traits,
    hdeclared.attrs.mono.append hentry.attrs, hentry.methods, hentry.item⟩

/-- Definitions that are alike have indexes that are alike. -/
theorem ofDefinitions_alike {definitions definitions' : Definitions}
    (h : definitions.Alike mayMark definitions') :
    (ofDefinitions definitions).Alike mayMark (ofDefinitions definitions') := by
  have hempty : Index.Alike mayMark {} {} := .nil
  -- the index is filled in three passes, each of which keeps alike what is alike
  have hinsert : ∀ index index' : Index, index.Alike mayMark index' → ∀ entry entry',
      TypeEntry.Alike mayMark entry entry' →
        (index.insert entry).Alike mayMark (index'.insert entry') :=
    fun _ _ hindex _ _ hentry => hindex.insert hentry
  have hattach : ∀ index index' : Index, index.Alike mayMark index' → ∀ placed placed',
      PlacedImpl.Alike placed placed' →
        (index.attach placed).Alike mayMark (index'.attach placed') :=
    fun _ _ hindex _ _ hplaced => hindex.attach hplaced
  have hprepend : ∀ index index' : Index, index.Alike mayMark index' → ∀ declared declared',
      DeclaredAlike declared declared' →
        (index.prependAttrs declared).Alike mayMark (index'.prependAttrs declared') :=
    fun _ _ hindex _ _ hdeclared => hindex.prependAttrs hdeclared
  exact List.rel_foldl hprepend
    (List.rel_foldl hattach (List.rel_foldl hinsert hempty h.entries) h.impls) h.moduleAttrs

/-- Files that define the same, one by one, have indexes that are alike. -/
theorem ofFiles_alike {files files' : List ModuleFile}
    (h : List.Forall₂ (fun m m' : ModuleFile => m.definitions.Alike mayMark m'.definitions)
      files files') :
    (ofFiles files).Alike mayMark (ofFiles files') := by
  have happend : ∀ a a', Definitions.Alike mayMark a a' →
      ∀ b b', Definitions.Alike mayMark b b' →
      (a.append b).Alike mayMark (a'.append b') := fun _ _ ha _ _ hb => ha.append hb
  have hdefinitions : List.Forall₂ (Definitions.Alike mayMark)
      (files.map ModuleFile.definitions) (files'.map ModuleFile.definitions) :=
    List.forall₂_map_left_iff.mpr (List.forall₂_map_right_iff.mpr h)
  exact ofDefinitions_alike (List.rel_foldl happend (.refl {}) hdefinitions)

/-! ## Finding -/

/-- What a name finds is alike. -/
theorem Alike.find? (h : index.Alike mayMark index') (name : String) :
    Option.Rel (TypeEntry.Alike mayMark) (index.find? name) (index'.find? name) := by
  have hending := fun ending => rel_find? (p := fun e => Text.endsWith e.qualifiedName ending)
    (q := fun e => Text.endsWith e.qualifiedName ending) h
    fun _ _ hentry => by rw [hentry.qualifiedName]
  rw [Index.find?, Index.find?]
  have hget := h.get? (String.ofList (dropLeadingColons (Text.trimChars name.toList)))
  generalize index.get? _ = found at hget ⊢
  generalize index'.get? _ = found' at hget ⊢
  -- an exact name comes first, then any that ends so
  cases hget with
  | none => exact hending _
  | some hentry => exact .some hentry

end Index

/-- The methods of one name are alike. -/
theorem TypeEntry.Alike.findMethod? {entry entry' : TypeEntry} (h : entry.Alike mayMark entry')
    (name : String) :
    Option.Rel FunctionItem.Alike (entry.findMethod? name) (entry'.findMethod? name) :=
  Index.rel_find? h.methods fun _ _ hf => by rw [hf.name]

/-- The functions of one name are alike, and so are the modules that have them. -/
theorem Index.Alike.findFunction? {index index' : Index} (h : index.Alike mayMark index')
    (name : String) :
    Option.Rel (fun found found' : TypeEntry × FunctionItem =>
        found.1.Alike mayMark found'.1 ∧ found.2.Alike found'.2)
      (index.findFunction? name) (index'.findFunction? name) := by
  refine rel_findSome? h fun entry entry' hentry => ?_
  rw [hentry.kind]
  split
  · have hmethod := hentry.findMethod? name
    generalize entry.findMethod? name = found at hmethod ⊢
    generalize entry'.findMethod? name = found' at hmethod ⊢
    cases hmethod with
    | none => exact .none
    | some hf => exact .some ⟨hentry, hf⟩
  · exact .none

end AnnotatedApi.Source
