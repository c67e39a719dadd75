import AnnotatedApi.Proofs.Route.Discovery
import AnnotatedApi.Proofs.Route.Memory

/-! # Routes of the generator itself

A host may serve the document by handlers of the generator, and these are not to be documented. The
addresses that the configuration serves documents at are left out whatever their routes dispatch to.
The types of the generator are known by their namespace, and the name that is looked at is the one
that the route writes: a type of the namespace that is called by an ending of its qualified name
passes, and is then recorded under the qualified name. -/

namespace AnnotatedApi.Route

open Source

/-! ## What belongs to the generator -/

/-- A name in the namespace of the generator. -/
def IsReserved (typeName : String) : Prop :=
  reservedNamespace.toList <+: typeName.toList

instance (typeName : String) : Decidable (IsReserved typeName) :=
  inferInstanceAs (Decidable (_ <+: _))

/-- An address at which the configuration serves a document or its viewer. Slashes in front do not
count, and an address of nothing else serves nothing. -/
def IsServed (config : Config) (uri : String) : Prop :=
  ∃ own ∈ [config.paths.jsonRoute, config.paths.yamlRoute, config.paths.uiRoute],
    Text.trimLeadingSlashes own ≠ "" ∧ Text.trimLeadingSlashes uri = Text.trimLeadingSlashes own

/-- A name outside the namespace by which the index finds a type of the namespace. -/
def Disguises (index : Index) (typeName : String) : Prop :=
  ¬ IsReserved typeName ∧
    ∃ owner, index.find? typeName = some owner ∧ IsReserved owner.qualifiedName

/-- A path as modules have it: without blanks around it and without colons in front. -/
structure IsPlainPath (path : String) : Prop where
  trimmed : Text.IsTrimmed path.toList
  front : ¬ [':', ':'] <+: path.toList

/-- An endpoint of a route has nothing of the generator, except for types in disguise. -/
structure OutsideGenerator (config : Config) (index : Index) (route : HostRoute) (e : Endpoint) :
    Prop where
  /-- The address is none that the configuration serves. -/
  address : ¬ IsServed config e.uri
  /-- The recorded type is in the namespace exactly when the route writes it by a name outside. -/
  type : ∃ written handler, route.action.bind (writtenHandler? index) = some written ∧
    e.handler = some handler ∧ (IsReserved handler.typeName ↔ Disguises index written.typeName)
  /-- A function that is named alone is no disguise: the type is that of its module. -/
  function : ∀ name owner f, route.action = some (.function name) →
    index.findFunction? name = some (owner, f) → IsPlainPath owner.qualifiedName →
    ∃ handler, e.handler = some handler ∧ handler.typeName = owner.qualifiedName ∧
      ¬ IsReserved handler.typeName

/-! ## Filters -/

variable {config : Config} {index : Index} {route : HostRoute} {e : Endpoint}

/-- The served addresses are the reserved ones. -/
theorem isServed_iff {uri : String} :
    IsServed config uri ↔ Text.trimLeadingSlashes uri ∈ config.paths.reservedUris := by
  rw [DocumentPaths.reservedUris, List.mem_filter, List.mem_map, bne_iff_ne]
  constructor
  · rintro ⟨own, hown, hne, heq⟩
    exact ⟨⟨own, hown, heq.symm⟩, heq ▸ hne⟩
  · rintro ⟨⟨own, hown, heq⟩, hne⟩
    exact ⟨own, hown, heq ▸ hne, heq.symm⟩

/-- Neither the written type nor the address of a documented route belongs to the generator. -/
theorem not_isReserved_of_isDocumented {written : Handler}
    (h : isDocumented config route written = true) :
    ¬ IsReserved written.typeName ∧ ¬ IsServed config route.uri := by
  simp only [isDocumented, Bool.and_eq_true, Bool.not_eq_true', Bool.or_eq_false_iff] at h
  obtain ⟨⟨⟨⟨⟨htype, huri⟩, -⟩, -⟩, -⟩, -⟩ := h
  constructor
  · intro hreserved
    rw [Text.startsWith_iff.mpr hreserved] at htype
    exact Bool.noConfusion htype
  · rw [isServed_iff, ← List.contains_iff_mem, huri]
    exact Bool.false_ne_true

/-- An endpoint comes from a written handler that the filters let pass. -/
theorem exists_written_of_mem_endpointsOf (h : e ∈ endpointsOf config index route) :
    ∃ written, route.action.bind (writtenHandler? index) = some written ∧
      isDocumented config route written = true ∧
      e.handler = some (written.qualified (index.find? written.typeName)) := by
  rw [endpointsOf] at h
  split at h
  · next written hwritten =>
    split at h
    · next hdocumented =>
      obtain ⟨method, -, rfl⟩ := List.mem_map.mp h
      exact ⟨written, hwritten, hdocumented, rfl⟩
    · exact absurd h List.not_mem_nil
  · exact absurd h List.not_mem_nil

/-! ## Names of types -/

/-- A name outside the namespace becomes one in it only by what it finds. -/
theorem isReserved_qualified_iff {written : Handler} (h : ¬ IsReserved written.typeName) :
    IsReserved (written.qualified (index.find? written.typeName)).typeName ↔
      Disguises index written.typeName := by
  rw [Disguises, and_iff_right h]
  cases hfind : index.find? written.typeName with
  | none =>
      have hname : (written.qualified none).typeName = written.typeName := rfl
      rw [hname]
      refine ⟨fun hreserved => absurd hreserved h, ?_⟩
      rintro ⟨owner, hnone, -⟩
      exact absurd hnone.symm (Option.some_ne_none owner)
  | some owner =>
      have hname : (written.qualified (some owner)).typeName = owner.qualifiedName := rfl
      rw [hname]
      simp only [Option.some.injEq, exists_eq_left']

/-- A plain path is looked up as it is, so it finds the entry that goes by it. -/
theorem IsPlainPath.find?_qualifiedName (hdistinct : index.Distinct) {owner : TypeEntry}
    (howner : owner ∈ index.entries) (h : IsPlainPath owner.qualifiedName) :
    index.find? owner.qualifiedName = some owner := by
  rw [Index.find?, h.trimmed.trimChars_eq, Index.dropLeadingColons_eq_self h.front,
    String.ofList_toList, hdistinct.get?_qualifiedName howner]

/-- A function that is found belongs to an entry. -/
theorem mem_entries_of_findFunction? {name : String} {owner : TypeEntry} {f : FunctionItem}
    (h : index.findFunction? name = some (owner, f)) : owner ∈ index.entries := by
  obtain ⟨entry, hentry, hfound⟩ := List.exists_of_findSome?_eq_some h
  split at hfound
  · obtain ⟨m, -, heq⟩ := Option.map_eq_some_iff.mp hfound
    rw [Prod.mk.injEq] at heq
    exact heq.1 ▸ hentry
  · exact absurd hfound.symm (Option.some_ne_none _)

/-- The handler of a function that is named alone has the module of the function as its type. -/
theorem typeName_qualified_of_function (hdistinct : index.Distinct) {name : String}
    {owner : TypeEntry} {f : FunctionItem} (hfound : index.findFunction? name = some (owner, f))
    (hplain : IsPlainPath owner.qualifiedName) {written : Handler}
    (hwritten : writtenHandler? index (.function name) = some written) :
    written.typeName = owner.qualifiedName ∧
      (written.qualified (index.find? written.typeName)).typeName = owner.qualifiedName := by
  rw [writtenHandler?, hfound, Option.map_some, Option.some.injEq] at hwritten
  have hname : written.typeName = owner.qualifiedName := by
    rw [← hwritten]
    exact Text.trim_eq_self hplain.trimmed
  refine ⟨hname, ?_⟩
  rw [hname, hplain.find?_qualifiedName hdistinct (mem_entries_of_findFunction? hfound)]
  rfl

/-! ## Discovery -/

/-- The endpoints of a route have nothing of the generator, except for types in disguise. -/
theorem outsideGenerator_of_mem_endpointsOf (hdistinct : index.Distinct)
    (h : e ∈ endpointsOf config index route) : OutsideGenerator config index route e := by
  obtain ⟨written, hwritten, hdocumented, hhandler⟩ := exists_written_of_mem_endpointsOf h
  obtain ⟨htype, haddress⟩ := not_isReserved_of_isDocumented hdocumented
  constructor
  · rw [(isOf_of_mem_endpointsOf h).uri]
    exact haddress
  · exact ⟨written, _, hwritten, hhandler, isReserved_qualified_iff htype⟩
  · intro name owner f haction hfound hplain
    rw [haction, Option.bind_some] at hwritten
    obtain ⟨hname, hqualified⟩ :=
      typeName_qualified_of_function hdistinct hfound hplain hwritten
    refine ⟨_, hhandler, hqualified, ?_⟩
    rw [hqualified, ← hname]
    exact htype

/-- Whatever the configuration, the sources and the routes of a host are, no address that is
discovered is one of the generator, and a type that is discovered is one of the generator exactly
when its route calls it by a name outside the namespace. -/
theorem outsideGenerator_of_mem_discover (config : Config) (files : List ModuleFile)
    (routes : List HostRoute) :
    ∀ e ∈ discover config (.ofFiles files) routes, ∃ route ∈ routes,
      e ∈ discover config (.ofFiles files) [route] ∧
        OutsideGenerator config (.ofFiles files) route e := by
  have hdistinct := Index.distinct_ofFiles files
  rw [discover_eq_endpoints hdistinct]
  intro e he
  obtain ⟨route, hroute, hof⟩ := mem_endpoints_iff.mp he
  refine ⟨route, hroute, ?_, outsideGenerator_of_mem_endpointsOf hdistinct hof⟩
  rw [discover_eq_endpoints hdistinct, endpoints, List.flatMap_singleton]
  exact hof

/-- A file with the handlers of users, which are functions. -/
def userFile : ModuleFile where
  path := "src/handlers/users.rs"
  modulePath := "crate::handlers::users"
  file := { attrs := [], items := [.function ⟨[], "list_users"⟩ []] }

/-- A route to a function that is named alone. -/
def userRoute : HostRoute where
  methods := [.get]
  uri := "/api/users"
  action := some (.function "list_users")

/-- The endpoint of the function has nothing of the generator. -/
theorem outsideGenerator_userRoute :
    ∃ e ∈ discover {} (.ofFiles [userFile]) [userRoute],
      ¬ IsServed {} e.uri ∧ ∃ handler, e.handler = some handler ∧
        handler.typeName = "crate::handlers::users" ∧ ¬ IsReserved handler.typeName := by
  have hlength : (discover {} (.ofFiles [userFile]) [userRoute]).length = 1 := by decide +kernel
  -- it is enough to know that there is an endpoint, since all of them are as they should be
  obtain ⟨e, hsingle⟩ := List.length_eq_one_iff.mp hlength
  have he : e ∈ discover {} (.ofFiles [userFile]) [userRoute] := by
    rw [hsingle]
    exact List.mem_singleton_self e
  obtain ⟨route, hroute, -, houtside⟩ :=
    outsideGenerator_of_mem_discover {} [userFile] [userRoute] e he
  obtain rfl := List.mem_singleton.mp hroute
  have hfound : ((Index.ofFiles [userFile]).findFunction? "list_users").map
      (fun found => found.1.qualifiedName) = some "crate::handlers::users" := by decide +kernel
  obtain ⟨⟨owner, f⟩, hfunction, hname⟩ := Option.map_eq_some_iff.mp hfound
  have hplain : IsPlainPath owner.qualifiedName := by
    have hhead : "crate::handlers::users".toList.head? = some 'c' := by decide
    have hlast : "crate::handlers::users".toList.getLast? = some 's' := by decide
    rw [hname]
    refine ⟨⟨?_, ?_⟩, by decide⟩
    · intro c hc
      rw [hhead, Option.mem_some_iff] at hc
      rw [← hc]
      decide
    · intro c hc
      rw [hlast, Option.mem_some_iff] at hc
      rw [← hc]
      decide
  obtain ⟨handler, hhandler, htype, hfree⟩ :=
    houtside.function "list_users" owner f rfl hfunction hplain
  exact ⟨e, he, houtside.address, handler, hhandler, htype.trans hname, hfree⟩

/-- A file of the generator with the handler that serves the document. -/
def specFile : ModuleFile where
  path := "src/http.rs"
  modulePath := "openapi_from_annotations::http"
  file := {
    attrs := []
    items := [
      .struct ⟨[], "SpecController", false, []⟩ [],
      .implementation
        ⟨[], none, .path .plain [] [.mk "SpecController" .none none []], [⟨[], "json"⟩]⟩ []] }

/-- A route to this handler that calls its type by the name alone. -/
def specRoute : HostRoute where
  methods := [.get]
  uri := "/api/spec"
  action := some (.reference "SpecController@json")

/-- The short name is a disguise: the route is discovered with a type of the generator. -/
theorem isReserved_of_specRoute :
    Disguises (.ofFiles [specFile]) "SpecController" ∧
      ∃ e ∈ discover {} (.ofFiles [specFile]) [specRoute], ∃ handler,
        e.handler = some handler ∧ IsReserved handler.typeName := by
  have howner : ((Index.ofFiles [specFile]).find? "SpecController").map TypeEntry.qualifiedName =
      some "openapi_from_annotations::http::SpecController" := by decide +kernel
  obtain ⟨owner, hfind, hname⟩ := Option.map_eq_some_iff.mp howner
  have hhandlers : (discover {} (.ofFiles [specFile]) [specRoute]).map Endpoint.handler =
      [some ⟨"openapi_from_annotations::http::SpecController", "json"⟩] := by decide +kernel
  obtain ⟨e, hsingle, hhandler⟩ := List.map_eq_singleton_iff.mp hhandlers
  refine ⟨⟨by decide, owner, hfind, by rw [hname]; decide⟩, e, ?_, _, hhandler, by decide⟩
  rw [hsingle]
  exact List.mem_singleton_self e

end AnnotatedApi.Route
