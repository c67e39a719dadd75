import Mathlib.Data.List.Forall2
import Mathlib.Data.List.Nodup
import Mathlib.Logic.Relation
import AnnotatedApi.Model.Discovery
import AnnotatedApi.Proofs.Source.Index

/-! # Source files in another order

Where the qualified names of all structs and modules differ, the structs have different names of
their own, and each implementation block is for the name of a struct, filling the index only
completes the entries that the files define: each gets what the blocks for it and the declarations
of its module say. Which those are does not depend on the order of the files, so files in another
order have an index with the same entries, up to the order of what each entry gets, and the same
structs are models. It is which structs are models that stays the same, and not all that is found of
a model: the table, the fillable names and the order of the fields follow the order in which the
`model` attributes of a struct and of its blocks are merged, and that order can change with the
order of the files. -/

namespace AnnotatedApi.Source

/-! ## Entries up to order -/

/-- Entries that agree but for the order of their attributes, methods and traits. -/
structure TypeEntry.UpToOrder (entry entry' : TypeEntry) : Prop where
  qualifiedName : entry'.qualifiedName = entry.qualifiedName
  name : entry'.name = entry.name
  kind : entry'.kind = entry.kind
  path : entry'.path = entry.path
  /-- The definition is the same, and so is whether it is generic. -/
  item : entry'.item = entry.item
  attrs : entry'.attrs.Perm entry.attrs
  methods : entry'.methods.Perm entry.methods
  traits : entry'.traits.Perm entry.traits

/-- Indexes with the same qualified names, whose entries agree up to order. -/
structure Index.UpToOrder (index index' : Index) : Prop where
  names : index'.names.Perm index.names
  entries : ∀ name, Option.Rel TypeEntry.UpToOrder (index.get? name) (index'.get? name)

/-- Models of entries that agree up to order. -/
inductive ModelUpToOrder (config : Config) : Model → Model → Prop
  | mk {entry entry' : TypeEntry} : entry.UpToOrder entry' →
      ModelUpToOrder config (.ofEntry config entry) (.ofEntry config entry')

/-- Lists of models of the same structs, up to the order of the models and of the attributes,
methods and traits of each struct. A model need not have the table, the fillable names or the order
of fields of its counterpart: these follow the order of the attributes. -/
def ModelsUpToOrder (config : Config) : List Model → List Model → Prop :=
  Relation.Comp List.Perm (List.Forall₂ (ModelUpToOrder config))

namespace TypeEntry.UpToOrder

variable {entry entry' : TypeEntry}

theorem isConcrete_eq (h : entry.UpToOrder entry') : entry'.isConcrete = entry.isConcrete := by
  rw [isConcrete, isConcrete, h.item]

theorem isModel_eq (h : entry.UpToOrder entry') : isModel entry' = isModel entry := by
  rw [isModel, isModel, implements, implements, h.attrs.any_eq, h.traits.contains_eq]

theorem isExcluded_eq (h : entry.UpToOrder entry') (names : List String) :
    isExcluded names entry' = isExcluded names entry := by
  simp only [isExcluded, h.qualifiedName, h.name]

end TypeEntry.UpToOrder

/-! ## What entries get -/

/-- The attributes that an implementation block gives to its struct: those of the block, unless it
is for a trait. -/
def ImplItem.givenAttrs (item : ImplItem) : List Attribute :=
  if item.traitName.isSome then [] else item.attrs

/-- An entry with what implementation blocks say, in order. -/
theorem foldl_extendBy (placed : List PlacedImpl) (entry : TypeEntry) :
    placed.foldl (fun entry p => Index.extendBy p.item entry) entry =
      { entry with
        attrs := entry.attrs ++ placed.flatMap fun p => p.item.givenAttrs
        methods := entry.methods ++ placed.flatMap fun p => p.item.methods
        traits := entry.traits ++ placed.filterMap fun p => p.item.traitName } := by
  induction placed generalizing entry with
  | nil => simp
  | cons p placed ih =>
      rw [List.foldl_cons, ih]
      cases htrait : p.item.traitName <;>
        simp [Index.extendBy, ImplItem.givenAttrs, htrait, List.append_assoc]

/-- An entry with attributes put in front, one list after the other. -/
theorem foldl_prepend (declared : List (String × List Attribute)) (entry : TypeEntry) :
    declared.foldl (fun entry d => { entry with attrs := d.2 ++ entry.attrs }) entry =
      { entry with attrs := declared.reverse.flatMap Prod.snd ++ entry.attrs } := by
  induction declared generalizing entry with
  | nil => rfl
  | cons d declared ih =>
      rw [List.foldl_cons, ih]
      simp [List.append_assoc]

/-! ## Changes by name -/

namespace Index

/-- Changes of the entries of given names change each entry by those of its own name, in order. -/
theorem foldl_modify {σ : Type} {key : σ → String} {change : σ → TypeEntry → TypeEntry}
    (hkeeps : ∀ s entry, (change s entry).qualifiedName = entry.qualifiedName)
    (steps : List σ) (entries : List TypeEntry) :
    steps.foldl (fun (index : Index) s => index.modify (key s) (change s)) ⟨entries⟩ =
      ⟨entries.map fun entry =>
        (steps.filter fun s => key s = entry.qualifiedName).foldl (fun entry s => change s entry)
          entry⟩ := by
  induction steps generalizing entries with
  | nil => simp
  | cons s steps ih =>
      rw [List.foldl_cons, modify, ih, List.map_map, Index.mk.injEq]
      refine List.map_congr_left fun entry _ => ?_
      by_cases h : key s = entry.qualifiedName
      · simp [h, hkeeps]
      · simp [h, Ne.symm h]

/-- Declarations of modules put their attributes in front of those of the entries of their names. -/
theorem foldl_prependAttrs (declared : List (String × List Attribute))
    (entries : List TypeEntry) :
    declared.foldl prependAttrs ⟨entries⟩ =
      ⟨entries.map fun entry =>
        (declared.filter fun d => d.1 = entry.qualifiedName).foldl
          (fun entry d => { entry with attrs := d.2 ++ entry.attrs }) entry⟩ :=
  @foldl_modify _ Prod.fst (fun d entry => { entry with attrs := d.2 ++ entry.attrs })
    (fun _ _ => rfl) declared entries

/-- Entries with different qualified names are all inserted. -/
theorem foldl_insert {front entries : List TypeEntry}
    (h : ((front ++ entries).map TypeEntry.qualifiedName).Nodup) :
    entries.foldl insert ⟨front⟩ = ⟨front ++ entries⟩ := by
  induction entries generalizing front with
  | nil => simp
  | cons entry entries ih =>
      have hfree : ¬ ((⟨front⟩ : Index).get? entry.qualifiedName).isSome = true := by
        rw [isSome_get?_iff]
        rw [List.map_append, List.map_cons, List.nodup_middle, List.nodup_cons] at h
        exact fun hmem => h.1 (List.mem_append_left _ hmem)
      rw [List.foldl_cons, insert, if_neg hfree, ih (by simpa using h), List.append_assoc,
        List.singleton_append]

/-! ## Targets of implementation blocks -/

/-- What decides which entry an implementation block is for. -/
def outline (index : Index) : List (String × String × OwnerKind) :=
  index.entries.map fun entry => (entry.qualifiedName, entry.name, entry.kind)

/-- Indexes with one outline have the same targets. -/
theorem implTarget?_of_outline {index index' : Index} (h : index'.outline = index.outline)
    (placed : PlacedImpl) : index'.implTarget? placed = index.implTarget? placed := by
  have hread (index : Index) : index.implTarget? placed =
      if qualify placed.modulePath placed.typeName ∈ index.outline.map Prod.fst then
        some (qualify placed.modulePath placed.typeName)
      else
        (index.outline.find? fun o => o.2.2 == .struct && o.2.1 == placed.typeName).map
          Prod.fst := by
    have hnames : index.outline.map Prod.fst = index.names := by
      rw [outline, List.map_map]
      rfl
    simp only [implTarget?, isSome_get?_iff, hnames]
    rw [outline, List.find?_map, Option.map_map]
    rfl
  rw [hread, hread, h]

/-- Changes that keep what decides on targets keep the outline. -/
theorem outline_modify_extendBy (index : Index) (name : String) (item : ImplItem) :
    (index.modify name (extendBy item)).outline = index.outline := by
  rw [outline, outline, modify, List.map_map]
  refine List.map_congr_left fun entry _ => ?_
  show (fun e : TypeEntry => (e.qualifiedName, e.name, e.kind))
    (if entry.qualifiedName == name then extendBy item entry else entry) = _
  split
  · unfold extendBy
    split <;> rfl
  · rfl

/-- Where each implementation block has a target, attaching them all changes the targets. -/
theorem foldl_attach {placed : List PlacedImpl} {index : Index}
    (h : ∀ p ∈ placed, (index.implTarget? p).isSome) :
    placed.foldl attach index =
      placed.foldl
        (fun (changed : Index) p =>
          changed.modify ((index.implTarget? p).getD "") (extendBy p.item)) index := by
  -- the changed index always has the outline of the first one, and so its targets
  suffices hsame : ∀ changed : Index, changed.outline = index.outline →
      placed.foldl attach changed =
        placed.foldl
          (fun (changed : Index) p =>
            changed.modify ((index.implTarget? p).getD "") (extendBy p.item)) changed from
    hsame index rfl
  induction placed with
  | nil => exact fun _ _ => rfl
  | cons p placed ih =>
      intro changed houtline
      obtain ⟨target, htarget⟩ := Option.isSome_iff_exists.mp (h p List.mem_cons_self)
      have hattach : changed.attach p = changed.modify target (extendBy p.item) := by
        rw [attach, implTarget?_of_outline houtline, htarget]
      rw [List.foldl_cons, List.foldl_cons, hattach, htarget, Option.getD_some]
      exact ih (fun q hq => h q (List.mem_cons_of_mem _ hq)) _
        ((outline_modify_extendBy _ _ _).trans houtline)

end Index

/-! ## Definitions that decide -/

namespace Definitions

/-- The definitions of several files, one after the other. -/
def ofFiles (files : List ModuleFile) : Definitions :=
  (files.map ModuleFile.definitions).foldl append {}

/-- The definitions leave no doubt about what belongs where. -/
structure Unambiguous (d : Definitions) : Prop where
  /-- No two structs or modules have one qualified name. -/
  names : (d.entries.map TypeEntry.qualifiedName).Nodup
  /-- No two structs have one name of their own. -/
  structs : ((d.entries.filter fun entry => entry.kind == .struct).map TypeEntry.name).Nodup
  /-- The type of each implementation block has the name of a struct. -/
  impls : ∀ placed ∈ d.impls,
    ∃ entry ∈ d.entries, entry.kind = .struct ∧ entry.name = placed.typeName

/-- The qualified name of the entry that an implementation block is for. -/
def target? (d : Definitions) (placed : PlacedImpl) : Option String :=
  (⟨d.entries⟩ : Index).implTarget? placed

/-- The implementation blocks for an entry. -/
def implsOf (d : Definitions) (entry : TypeEntry) : List PlacedImpl :=
  d.impls.filter fun placed => (d.target? placed).getD "" = entry.qualifiedName

/-- The attributes that modules declare for an entry, the last declaration first. -/
def declaredFor (d : Definitions) (entry : TypeEntry) : List Attribute :=
  (d.moduleAttrs.filter fun declared => declared.1 = entry.qualifiedName).reverse.flatMap Prod.snd

/-- An entry with all that the definitions say of it. -/
def complete (d : Definitions) (entry : TypeEntry) : TypeEntry :=
  { entry with
    attrs := d.declaredFor entry ++
      (entry.attrs ++ (d.implsOf entry).flatMap fun placed => placed.item.givenAttrs)
    methods := entry.methods ++ (d.implsOf entry).flatMap fun placed => placed.item.methods
    traits := entry.traits ++ (d.implsOf entry).filterMap fun placed => placed.item.traitName }

variable {d d' : Definitions}

/-- The struct of a name, where structs have different names. -/
theorem Unambiguous.eq_of_name_eq (h : d.Unambiguous) {entry entry' : TypeEntry}
    (hentry : entry ∈ d.entries) (hentry' : entry' ∈ d.entries) (hkind : entry.kind = .struct)
    (hkind' : entry'.kind = .struct) (hname : entry.name = entry'.name) : entry = entry' :=
  List.inj_on_of_nodup_map h.structs
    (List.mem_filter.mpr ⟨hentry, by rw [hkind]; rfl⟩)
    (List.mem_filter.mpr ⟨hentry', by rw [hkind']; rfl⟩) hname

/-- The target of an implementation block is the type of its module, or else the struct of the
name. -/
theorem Unambiguous.target?_eq (h : d.Unambiguous) {placed : PlacedImpl} {entry : TypeEntry}
    (hentry : entry ∈ d.entries) (hkind : entry.kind = .struct)
    (hname : entry.name = placed.typeName) :
    d.target? placed =
      if qualify placed.modulePath placed.typeName ∈ d.entries.map TypeEntry.qualifiedName then
        some (qualify placed.modulePath placed.typeName)
      else some entry.qualifiedName := by
  have hfind : (d.entries.find? fun e => e.kind == .struct && e.name == placed.typeName) =
      some entry := by
    have hsome : (d.entries.find? fun e => e.kind == .struct && e.name == placed.typeName).isSome :=
      List.find?_isSome.mpr ⟨entry, hentry, by simp [hkind, hname]⟩
    obtain ⟨found, hfound⟩ := Option.isSome_iff_exists.mp hsome
    obtain ⟨hkind', hname'⟩ : found.kind = .struct ∧ found.name = placed.typeName := by
      simpa using List.find?_some hfound
    rw [hfound, h.eq_of_name_eq (List.mem_of_find?_eq_some hfound) hentry hkind' hkind
      (hname'.trans hname.symm)]
  rw [target?, Index.implTarget?, hfind]
  simp only [Index.isSome_get?_iff]
  rfl

/-- Every implementation block has a target. -/
theorem Unambiguous.isSome_target? (h : d.Unambiguous) {placed : PlacedImpl}
    (hplaced : placed ∈ d.impls) : (d.target? placed).isSome := by
  obtain ⟨entry, hentry, hkind, hname⟩ := h.impls placed hplaced
  rw [h.target?_eq hentry hkind hname]
  split <;> rfl

/-- The index of definitions that leave no doubt has the entries that they define, complete. -/
theorem Unambiguous.entries_ofDefinitions (h : d.Unambiguous) :
    (Index.ofDefinitions d).entries = d.entries.map d.complete := by
  have hinsert : d.entries.foldl Index.insert {} = ⟨d.entries⟩ :=
    @Index.foldl_insert [] d.entries h.names
  have hattach := @Index.foldl_attach d.impls ⟨d.entries⟩ fun _ hp => h.isSome_target? hp
  simp only [Index.ofDefinitions, hinsert, hattach,
    Index.foldl_modify (fun (p : PlacedImpl) => Index.qualifiedName_extendBy p.item),
    Index.foldl_prependAttrs, List.map_map]
  refine List.map_congr_left fun entry _ => ?_
  simp only [Function.comp_apply, foldl_extendBy, foldl_prepend]
  rfl

/-! ## Definitions in another order -/

/-- Definitions with the same parts in another order. -/
structure Reordered (d d' : Definitions) : Prop where
  entries : d'.entries.Perm d.entries
  impls : d'.impls.Perm d.impls
  moduleAttrs : d'.moduleAttrs.Perm d.moduleAttrs

namespace Reordered

/-- In another order the definitions leave no doubt either. -/
theorem unambiguous (hd : d.Reordered d') (h : d.Unambiguous) : d'.Unambiguous where
  names := (hd.entries.map _).nodup_iff.mpr h.names
  structs := ((hd.entries.filter _).map _).nodup_iff.mpr h.structs
  impls := by
    intro placed hplaced
    obtain ⟨entry, hentry, hstruct⟩ := h.impls placed (hd.impls.mem_iff.mp hplaced)
    exact ⟨entry, hd.entries.mem_iff.mpr hentry, hstruct⟩

/-- In another order each implementation block has the same target. -/
theorem target?_eq (hd : d.Reordered d') (h : d.Unambiguous) {placed : PlacedImpl}
    (hplaced : placed ∈ d.impls) : d'.target? placed = d.target? placed := by
  obtain ⟨entry, hentry, hkind, hname⟩ := h.impls placed hplaced
  rw [h.target?_eq hentry hkind hname,
    (hd.unambiguous h).target?_eq (hd.entries.mem_iff.mpr hentry) hkind hname]
  simp only [(hd.entries.map TypeEntry.qualifiedName).mem_iff]

/-- In another order an entry gets the same implementation blocks. -/
theorem implsOf_perm (hd : d.Reordered d') (h : d.Unambiguous) (entry : TypeEntry) :
    (d'.implsOf entry).Perm (d.implsOf entry) := by
  have hsame : d.implsOf entry =
      d.impls.filter fun placed => (d'.target? placed).getD "" = entry.qualifiedName :=
    List.filter_congr fun placed hplaced => by rw [hd.target?_eq h hplaced]
  rw [hsame]
  exact hd.impls.filter _

/-- In another order an entry gets the same, up to order. -/
theorem complete_upToOrder (hd : d.Reordered d') (h : d.Unambiguous) (entry : TypeEntry) :
    (d.complete entry).UpToOrder (d'.complete entry) := by
  have himpls := hd.implsOf_perm h entry
  have hdeclared : (d'.declaredFor entry).Perm (d.declaredFor entry) := by
    have hfilter := hd.moduleAttrs.filter fun declared => declared.1 = entry.qualifiedName
    exact List.Perm.flatMap_right _
      ((List.reverse_perm _).trans (hfilter.trans (List.reverse_perm _).symm))
  refine ⟨rfl, rfl, rfl, rfl, rfl, ?_, ?_, ?_⟩
  · exact hdeclared.append ((himpls.flatMap_right _).append_left _)
  · exact (himpls.flatMap_right _).append_left _
  · exact (himpls.filterMap _).append_left _

end Reordered

/-- The definitions of files have what those of each file have, in order. -/
theorem ofFiles_eq (files : List ModuleFile) :
    ofFiles files =
      ⟨files.flatMap fun m => m.definitions.entries, files.flatMap fun m => m.definitions.impls,
        files.flatMap fun m => m.definitions.moduleAttrs⟩ := by
  induction files using List.reverseRecOn with
  | nil => rfl
  | append_singleton files m ih =>
      rw [ofFiles, List.map_append, List.foldl_append, ← ofFiles, ih]
      simp [append]

/-- The definitions of files in another order. -/
theorem reordered_ofFiles {files files' : List ModuleFile} (h : files'.Perm files) :
    (ofFiles files).Reordered (ofFiles files') := by
  rw [ofFiles_eq, ofFiles_eq]
  exact ⟨h.flatMap_right _, h.flatMap_right _, h.flatMap_right _⟩

end Definitions

/-! ## Indexes of files -/

namespace Index

variable {d d' : Definitions}

/-- Definitions in another order make an index with the same entries, up to order. -/
theorem upToOrder_ofDefinitions (hd : d.Reordered d') (h : d.Unambiguous) :
    (ofDefinitions d).UpToOrder (ofDefinitions d') := by
  have hentries := h.entries_ofDefinitions
  have hentries' := (hd.unambiguous h).entries_ofDefinitions
  have hnames {d : Definitions} (h : d.Unambiguous) :
      (ofDefinitions d).names = d.entries.map TypeEntry.qualifiedName := by
    rw [names, h.entries_ofDefinitions, List.map_map]
    rfl
  have hperm : (ofDefinitions d').names.Perm (ofDefinitions d).names := by
    rw [hnames h, hnames (hd.unambiguous h)]
    exact hd.entries.map _
  refine ⟨hperm, fun name => ?_⟩
  by_cases hmem : name ∈ (ofDefinitions d).names
  · rw [hnames h] at hmem
    obtain ⟨entry, hentry, rfl⟩ := List.mem_map.mp hmem
    -- each index has the entry completed by its own blocks, and these are the same up to order
    have hcomplete : d.complete entry ∈ (ofDefinitions d).entries :=
      hentries ▸ List.mem_map_of_mem hentry
    have hcomplete' : d'.complete entry ∈ (ofDefinitions d').entries :=
      hentries' ▸ List.mem_map_of_mem (hd.entries.mem_iff.mpr hentry)
    have hget : (ofDefinitions d).get? entry.qualifiedName = some (d.complete entry) :=
      (distinct_ofDefinitions d).get?_qualifiedName hcomplete
    have hget' : (ofDefinitions d').get? entry.qualifiedName = some (d'.complete entry) :=
      (distinct_ofDefinitions d').get?_qualifiedName hcomplete'
    rw [hget, hget']
    exact .some (hd.complete_upToOrder h entry)
  · have hmem' : name ∉ (ofDefinitions d').names := fun h => hmem (hperm.mem_iff.mp h)
    rw [← isSome_get?_iff, Option.not_isSome_iff_eq_none] at hmem hmem'
    rw [hmem, hmem']
    exact .none

/-- Definitions in another order have the same models, up to order. -/
theorem modelsOf_upToOrder (hd : d.Reordered d') (h : d.Unambiguous) (config : Config) :
    ModelsUpToOrder config (modelsOf config (ofDefinitions d))
      (modelsOf config (ofDefinitions d')) := by
  let isFound (entry : TypeEntry) : Bool :=
    entry.kind == .struct && (isModel entry && entry.isConcrete &&
      !isExcluded config.discovery.models.excluded entry)
  have hmodels {d : Definitions} (h : d.Unambiguous) :
      modelsOf config (ofDefinitions d) =
        (d.entries.filter (isFound ∘ d.complete)).map fun entry =>
          Model.ofEntry config (d.complete entry) := by
    rw [modelsOf, structs, h.entries_ofDefinitions, List.filter_filter, List.filter_map,
      List.map_map]
    congr 1
    refine List.filter_congr fun entry _ => ?_
    exact Bool.and_comm _ _
  -- whether an entry is a model does not depend on the order of what completes it
  have hsame (entry : TypeEntry) :
      (isFound ∘ d'.complete) entry = (isFound ∘ d.complete) entry := by
    have hentry := hd.complete_upToOrder h entry
    show isFound _ = isFound _
    simp only [isFound, hentry.kind, hentry.isModel_eq, hentry.isConcrete_eq, hentry.isExcluded_eq]
  rw [hmodels h, hmodels (hd.unambiguous h), funext hsame]
  refine ⟨_, (hd.entries.symm.filter _).map _, ?_⟩
  rw [List.forall₂_map_left_iff, List.forall₂_map_right_iff, List.forall₂_same]
  exact fun entry _ => .mk (hd.complete_upToOrder h entry)

end Index

/-- Lists of models that agree up to order have the same identifiers, up to order. -/
theorem ModelsUpToOrder.identifiers {config : Config} {models models' : List Model}
    (h : ModelsUpToOrder config models models') :
    (models'.map Model.identifier).Perm (models.map Model.identifier) := by
  obtain ⟨middle, hperm, hforall⟩ := h
  have hsame : models'.map Model.identifier = middle.map Model.identifier := by
    clear hperm
    induction hforall with
    | nil => rfl
    | cons hmodel _ ih =>
        obtain ⟨hentry⟩ := hmodel
        rw [List.map_cons, List.map_cons, ih]
        exact congrArg (· :: _) hentry.qualifiedName
  rw [hsame]
  exact (hperm.map _).symm

/-- Files in another order make an index with the same qualified names, under which are the same
entries up to the order of their attributes, methods and traits, and the same structs are models.
What a model says of its table, its fillable names and the order of its fields is not claimed to be
the same: it depends on the order of the attributes. -/
theorem ofFiles_upToOrder {files files' : List ModuleFile} (hfiles : files'.Perm files)
    (h : (Definitions.ofFiles files).Unambiguous) :
    (Index.ofFiles files).UpToOrder (Index.ofFiles files') ∧
      ∀ config,
        ModelsUpToOrder config (modelsOf config (.ofFiles files))
          (modelsOf config (.ofFiles files')) ∧
        ((modelsOf config (.ofFiles files')).map Model.identifier).Perm
          ((modelsOf config (.ofFiles files)).map Model.identifier) := by
  have hreordered := Definitions.reordered_ofFiles hfiles
  refine ⟨Index.upToOrder_ofDefinitions hreordered h, fun config => ?_⟩
  have hmodels := Index.modelsOf_upToOrder hreordered h config
  exact ⟨hmodels, hmodels.identifiers⟩

/-! ## Two files -/

/-- A module with a struct and the declaration of the module in the other file, and that module with
a function and two implementation blocks for the struct. -/
def taskModules : List ModuleFile :=
  let marked : Attribute := { isGlobal := false, path := ["model"], form := .bare }
  let grouped : Attribute := { isGlobal := false, path := ["hidden"], form := .bare }
  let task : TypeExpr := .path .plain [] [.mk "super" .none none [], .mk "Task" .none none []]
  [{ path := "src/lib.rs", modulePath := "crate"
     file := {
      attrs := []
      items := [
        .struct { attrs := [], name := "Task", isGeneric := false, fields := [] } [],
        .module [grouped] "tasks" none []] } },
   { path := "src/tasks.rs", modulePath := "crate::tasks"
     file := {
      attrs := []
      items := [
        .function { attrs := [], name := "list" } [],
        .implementation { attrs := [marked], traitName := none, selfType := task,
                          methods := [{ attrs := [], name := "show" }] } [],
        .implementation { attrs := [], traitName := some "Model", selfType := task,
                          methods := [{ attrs := [], name := "key" }] } []] } }]

/-- The two files may be read in either order. -/
theorem ofFiles_upToOrder_taskModules :
    (Definitions.ofFiles taskModules).Unambiguous ∧
      (Index.ofFiles taskModules).UpToOrder (Index.ofFiles taskModules.reverse) ∧
      ((modelsOf {} (.ofFiles taskModules.reverse)).map Model.identifier).Perm
        ((modelsOf {} (.ofFiles taskModules)).map Model.identifier) := by
  have h : (Definitions.ofFiles taskModules).Unambiguous :=
    ⟨by decide +kernel, by decide +kernel, by decide +kernel⟩
  obtain ⟨hindex, hmodels⟩ := ofFiles_upToOrder (List.reverse_perm taskModules) h
  exact ⟨h, hindex, (hmodels {}).2⟩

end AnnotatedApi.Source
