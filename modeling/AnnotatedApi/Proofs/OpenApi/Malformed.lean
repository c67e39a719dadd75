import AnnotatedApi.OpenApi.Generation
import AnnotatedApi.Proofs.Route.Memory
import AnnotatedApi.Proofs.Source.Insertion

/-! # Malformed attributes leave no trace

Discovery and generation look at source files through their index, so files whose indexes are alike
give the same endpoints, the same models and the same document. A malformed annotation can therefore
stand anywhere, and a malformed storage declaration on any struct that is a model without it. -/

namespace AnnotatedApi

open Source Route

variable {mayMark : String → Prop} {index index' : Index}

/-! ## Endpoints -/

/-- Types that are alike have the same annotations. -/
theorem annotationsOfOwner_alike {owner owner' : Option TypeEntry}
    (h : Option.Rel (TypeEntry.Alike mayMark) owner owner') :
    annotationsOfOwner owner' = annotationsOfOwner owner :=
  congrArg (Option.getD · [])
    (Index.map_eq_of_rel h fun _ _ hentry => hentry.attrs.padded.annotations)

/-- A handler has the same qualified name under types that are alike. -/
theorem qualified_alike {owner owner' : Option TypeEntry}
    (h : Option.Rel (TypeEntry.Alike mayMark) owner owner') (written : Handler) :
    written.qualified owner' = written.qualified owner := by
  rw [Handler.qualified, Handler.qualified,
    Index.map_eq_of_rel h fun _ _ hentry => hentry.qualifiedName]

/-- The annotations of a method are the same in types that are alike. -/
theorem methodAnnotations_alike {owner owner' : Option TypeEntry}
    (h : Option.Rel (TypeEntry.Alike mayMark) owner owner') (method : String) :
    ((owner'.bind fun o => o.findMethod? method).map fun m => Annotations.ofAttributes m.attrs) =
      (owner.bind fun o => o.findMethod? method).map fun m => Annotations.ofAttributes m.attrs := by
  cases h with
  | none => rfl
  | some hentry =>
      exact Index.map_eq_of_rel (hentry.findMethod? method) fun _ _ hf => hf.attrs.annotations

/-- An action spells the same handler for indexes that are alike. -/
theorem writtenHandler?_alike (h : index.Alike mayMark index') (action : HandlerAction) :
    writtenHandler? index' action = writtenHandler? index action := by
  cases action with
  | reference text => rfl
  | pair owner method => rfl
  | function name =>
      refine Index.map_eq_of_rel (h.findFunction? name) fun found found' hfound => ?_
      dsimp only
      rw [hfound.1.qualifiedName, hfound.2.name]

/-- A route has the same endpoints for indexes that are alike. -/
theorem endpointsOf_alike (h : index.Alike mayMark index') (config : Config) (route : HostRoute) :
    endpointsOf config index' route = endpointsOf config index route := by
  have hwritten : writtenHandler? index' = writtenHandler? index :=
    funext fun action => writtenHandler?_alike h action
  have hwith : ∀ written,
      endpointsWith index' route written = endpointsWith index route written := by
    intro written
    have howner := h.find? written.typeName
    rw [endpointsWith, endpointsWith, qualified_alike howner, annotationsOfOwner_alike howner,
      endpointsFor, endpointsFor, methodAnnotations_alike howner]
  simp only [endpointsOf, hwritten, hwith]

/-! ## Models -/

/-- Fields that are alike appear in the same way. -/
theorem ofField?_alike {f f' : Field} (h : f.Alike f') :
    NamedField.ofField? f' = NamedField.ofField? f := by
  rw [NamedField.ofField?, NamedField.ofField?, h.name, h.type, h.attrs.fieldOptions,
    h.attrs.annotations]

/-- Entries that are alike have the same written fields. -/
theorem namedFieldsOf_alike {entry entry' : TypeEntry} (h : entry.Alike mayMark entry') :
    namedFieldsOf entry' = namedFieldsOf entry := by
  have hfields : ∀ fields fields', List.Forall₂ Field.Alike fields fields' →
      fields'.filterMap NamedField.ofField? = fields.filterMap NamedField.ofField? := by
    intro fields fields' hfields
    induction hfields with
    | nil => rfl
    | cons hf _ ih => rw [List.filterMap_cons, List.filterMap_cons, ofField?_alike hf, ih]
  rw [namedFieldsOf, namedFieldsOf]
  have hitem := h.item
  generalize entry.item = item at hitem ⊢
  generalize entry'.item = item' at hitem ⊢
  cases hitem with
  | none => rfl
  | some hstruct => exact hfields _ _ hstruct.fields

/-- Entries that are alike make the same model. -/
theorem ofEntry_alike {entry entry' : TypeEntry} (h : entry.Alike mayMark entry')
    (config : Config) : Model.ofEntry config entry' = Model.ofEntry config entry := by
  simp only [Model.ofEntry, h.attrs.padded.storage, h.attrs.padded.annotations,
    namedFieldsOf_alike h, h.qualifiedName, h.name]

/-- Of two entries that are alike both are models or none, if only models may get a mark. -/
theorem isModel_alike {entry entry' : TypeEntry} (h : entry.Alike mayMark entry')
    (hmay : mayMark entry.qualifiedName → isModel entry = true) :
    isModel entry' = isModel entry := by
  have hopen : ∀ e : TypeEntry, isModel e = (e.traits.contains "Model" || isMarked e.attrs) :=
    fun _ => rfl
  rcases h.attrs.marked with hsame | hmark
  · rw [hopen, hopen, h.traits, hsame]
  · have hmodel := hmay hmark
    rw [hmodel]
    rw [hopen, Bool.or_eq_true] at hmodel ⊢
    rw [h.traits]
    exact hmodel.imp_right h.attrs.padded.isMarked

/-- Entries that are alike are concrete together and excluded together. -/
theorem isConcrete_alike {entry entry' : TypeEntry} (h : entry.Alike mayMark entry') :
    entry'.isConcrete = entry.isConcrete := by
  rw [TypeEntry.isConcrete, TypeEntry.isConcrete]
  have hitem := h.item
  generalize entry.item = item at hitem ⊢
  generalize entry'.item = item' at hitem ⊢
  cases hitem with
  | none => rfl
  | some hstruct => exact congrArg (! ·) hstruct.isGeneric

/-- Indexes that are alike have the same models, if only models may get a mark. -/
theorem modelsOf_alike (h : index.Alike mayMark index')
    (hmay : ∀ entry ∈ index.entries, mayMark entry.qualifiedName → isModel entry = true)
    (config : Config) : modelsOf config index' = modelsOf config index := by
  obtain ⟨entries⟩ := index
  obtain ⟨entries'⟩ := index'
  change List.Forall₂ _ entries entries' at h
  rw [modelsOf, modelsOf, Index.structs, Index.structs, List.filter_filter, List.filter_filter]
  induction h with
  | nil => rfl
  | @cons entry entry' _ _ hentry _ ih =>
      have hmodel := isModel_alike hentry (hmay entry List.mem_cons_self)
      have hexcluded : ∀ names, isExcluded names entry' = isExcluded names entry := by
        intro names
        rw [isExcluded, isExcluded, hentry.qualifiedName, hentry.name]
      have hrest := ih fun e he => hmay e (List.mem_cons_of_mem _ he)
      simp only [List.filter_cons, hmodel, isConcrete_alike hentry, hexcluded, hentry.kind]
      split
      · rw [List.map_cons, List.map_cons, ofEntry_alike hentry, hrest]
      · exact hrest

/-! ## Documents -/

/-- The index has a model of the qualified name. -/
def Source.Index.IsModel (index : Index) (name : String) : Prop :=
  ∃ entry, index.get? name = some entry ∧ isModel entry = true

/-- One malformed attribute more leaves no trace: a malformed annotation anywhere in source files,
or a malformed storage declaration on a struct that is a model already, changes neither the
endpoints of a host's routes nor the models, and so nothing in the document either. -/
theorem Document.generate_eq_of_filesGain {a : Attribute} {site : Site}
    {files files' : List ModuleFile} (hgain : FilesGain a site files files')
    (hsilent : site.IsSilent (Index.ofFiles files).IsModel a) (config : Config)
    (routes : List HostRoute) :
    discover config (.ofFiles files') routes = discover config (.ofFiles files) routes ∧
      modelsOf config (.ofFiles files') = modelsOf config (.ofFiles files) ∧
      generate config (discover config (.ofFiles files') routes)
          (modelsOf config (.ofFiles files')) =
        generate config (discover config (.ofFiles files) routes)
          (modelsOf config (.ofFiles files)) := by
  have halike := FilesGain.alike hgain hsilent
  have hendpoints : discover config (.ofFiles files') routes =
      discover config (.ofFiles files) routes := by
    rw [discover_eq_endpoints (Index.distinct_ofFiles _),
      discover_eq_endpoints (Index.distinct_ofFiles _), endpoints, endpoints,
      funext (endpointsOf_alike halike config)]
  have hmodels : modelsOf config (.ofFiles files') = modelsOf config (.ofFiles files) := by
    refine modelsOf_alike halike ?_ config
    -- a name that may get a mark is that of the entry itself, which is a model
    rintro entry hentry ⟨found, hfound, hmodel⟩
    rw [(Index.distinct_ofFiles files).get?_qualifiedName hentry, Option.some.injEq] at hfound
    rw [hfound]
    exact hmodel
  exact ⟨hendpoints, hmodels, by rw [hendpoints, hmodels]⟩

/-- A storage declaration that spells the name of its table wrong. -/
def malformedStorage : Attribute :=
  ⟨false, ["model"], .list [.name "tables"]⟩

/-- A struct with one field. -/
def taskStruct (attrs : List Attribute) : StructItem :=
  ⟨attrs, "Task", false, [⟨[], some "title", .path .plain [] [.mk "String" .none none []]⟩]⟩

/-- A file with the struct, which is a model because it implements `Model`, and a handler. -/
def taskFile (attrs : List Attribute) : ModuleFile where
  path := "src/task.rs"
  modulePath := "crate::task"
  file := {
    attrs := []
    items := [
      .implementation
        ⟨[], some "Model", .path .plain [] [.mk "Task" .none none []], [⟨[], "index"⟩]⟩ [],
      .struct (taskStruct attrs) []] }

/-- A route to the handler. -/
def taskIndexRoute : HostRoute where
  methods := [.get]
  uri := "/api/tasks"
  action := some (.reference "Task@index")

/-- The malformed declaration leaves no trace on a struct that has no mark of its own. -/
theorem Document.generate_eq_of_malformedStorage :
    FilesGain malformedStorage (.struct "crate::task::Task" []) [taskFile []]
        [taskFile [malformedStorage]] ∧
      (Site.struct "crate::task::Task" []).IsSilent (Index.ofFiles [taskFile []]).IsModel
        malformedStorage ∧
      discover {} (.ofFiles [taskFile [malformedStorage]]) [taskIndexRoute] =
        discover {} (.ofFiles [taskFile []]) [taskIndexRoute] ∧
      modelsOf {} (.ofFiles [taskFile [malformedStorage]]) =
        modelsOf {} (.ofFiles [taskFile []]) := by
  have hname : qualify "crate::task" "Task" = "crate::task::Task" := by decide +kernel
  have hitem : ItemGains malformedStorage "crate::task" (.struct "crate::task::Task" [])
      (.struct (taskStruct []) []) (.struct (taskStruct [malformedStorage]) []) := by
    rw [← hname]
    show ItemGains _ _ (.struct (qualify _ (taskStruct []).name) (taskStruct []).attrs)
      (.struct (taskStruct []) []) (.struct { taskStruct [] with attrs := [malformedStorage] } [])
    exact .struct (AttrsGain.mk [] [])
  have hgain : FilesGain malformedStorage (.struct "crate::task::Task" []) [taskFile []]
      [taskFile [malformedStorage]] := .mk [] [] (.item (.mk [_] [] hitem))
  have hmalformed : StorageDecl.ofAttribute malformedStorage =
      .error (.unknownArgument "tables") := by cbv
  -- the struct is a model without the declaration, as it implements `Model`
  have hmodel : ((Index.ofFiles [taskFile []]).get? "crate::task::Task").map isModel =
      some true := by decide +kernel
  have hsilent : (Site.struct "crate::task::Task" []).IsSilent (Index.ofFiles [taskFile []]).IsModel
      malformedStorage :=
    .inr ⟨⟨rfl, _, hmalformed⟩, _, _, rfl, .inr (Option.map_eq_some_iff.mp hmodel)⟩
  have hsame := Document.generate_eq_of_filesGain hgain hsilent {} [taskIndexRoute]
  exact ⟨hgain, hsilent, hsame.1, hsame.2.1⟩

end AnnotatedApi
