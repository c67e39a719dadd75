import AnnotatedApi.Proofs.Source.Index
import AnnotatedApi.Route.Discovery

/-! # Discovery is route by route

A run of discovery remembers the annotations of the types it came across. What is remembered under a
name is always what the entry of that name says, or nothing where there is no entry: a type that is
known goes by its qualified name, which no other type has, and a type that is not known goes by a
name that is no entry's. So the memory never shows, and each route is discovered as if it stood
alone. -/

namespace AnnotatedApi.Route

open Source

variable {index : Index}

/-! ## Handlers as they are written -/

/-- A handler is written without blanks around the name of its type. -/
theorem isTrimmed_of_handlerOf? {typeName method : String} {handler : Handler}
    (h : handlerOf? typeName method = some handler) :
    Text.IsTrimmed handler.typeName.toList := by
  unfold handlerOf? at h
  split at h
  · exact absurd h.symm (Option.some_ne_none _)
  · rw [Option.some.injEq] at h
    rw [← h, trimmedHandler, Text.toList_trim]
    exact Text.isTrimmed_trimChars _

/-- Whatever an action spells, the handler has no blanks around the name of its type. -/
theorem isTrimmed_of_writtenHandler? {action : HandlerAction} {handler : Handler}
    (h : writtenHandler? index action = some handler) :
    Text.IsTrimmed handler.typeName.toList := by
  have htrimmed : ∀ typeName method,
      Text.IsTrimmed (trimmedHandler typeName method).typeName.toList := by
    intro typeName method
    rw [trimmedHandler, Text.toList_trim]
    exact Text.isTrimmed_trimChars _
  cases action with
  | reference text =>
      simp only [writtenHandler?, handlerOfReference?] at h
      split at h
      · exact isTrimmed_of_handlerOf? h
      · split at h
        · exact absurd h.symm (Option.some_ne_none _)
        · rw [Option.some.injEq] at h
          exact h ▸ htrimmed _ _
  | pair owner method => exact isTrimmed_of_handlerOf? h
  | function name =>
      obtain ⟨⟨owner, f⟩, -, rfl⟩ := Option.map_eq_some_iff.mp h
      exact htrimmed _ _

/-! ## The memory -/

/-- Everything that is remembered under a name is what the entry of the name says. -/
def Faithful (index : Index) (remembered : Remembered) : Prop :=
  ∀ name annotations, getMember? name remembered = some annotations →
    annotations = annotationsOfOwner (index.get? name)

/-- The name that a handler's type is remembered under tells the type. -/
theorem annotationsOfOwner_get?_qualified (h : index.Distinct) {written : Handler}
    (htrimmed : Text.IsTrimmed written.typeName.toList) :
    annotationsOfOwner (index.get? (written.qualified (index.find? written.typeName)).typeName) =
      annotationsOfOwner (index.find? written.typeName) := by
  cases howner : index.find? written.typeName with
  | none =>
      have hname : (written.qualified none).typeName = written.typeName := rfl
      rw [hname, Index.get?_eq_none_of_find? htrimmed howner]
  | some entry =>
      have hname : (written.qualified (some entry)).typeName = entry.qualifiedName := rfl
      rw [hname, h.get?_qualifiedName (Index.mem_of_find? howner)]

/-- Recalling the annotations of a type gives those of the type, and the memory stays faithful. -/
theorem Faithful.recallAnnotations {remembered : Remembered} (h : Faithful index remembered)
    {handler : Handler} {owner : Option TypeEntry}
    (howner : annotationsOfOwner (index.get? handler.typeName) = annotationsOfOwner owner) :
    ∃ after, Faithful index after ∧
      (recallAnnotations handler owner).run remembered = (annotationsOfOwner owner, after) := by
  cases hread : getMember? handler.typeName remembered with
  | some annotations =>
      refine ⟨remembered, h, ?_⟩
      have hsame : annotations = annotationsOfOwner owner := (h _ _ hread).trans howner
      simp only [Route.recallAnnotations, StateT.run_bind, StateT.run_get, pure_bind, hread]
      rw [hsame]
      rfl
  | none =>
      refine ⟨putMember handler.typeName (annotationsOfOwner owner) remembered, ?_, ?_⟩
      · -- what is remembered now is faithful for the new name and for those before
        intro name annotations hname
        by_cases heq : name = handler.typeName
        · rw [heq, getMember?_putMember_self, Option.some.injEq] at hname
          rw [heq, howner, hname]
        · rw [getMember?_putMember_of_ne heq] at hname
          exact h name annotations hname
      · simp only [Route.recallAnnotations, StateT.run_bind, StateT.run_get, pure_bind, hread]
        rfl

/-- A route is discovered as if nothing was remembered, and the memory stays faithful. -/
theorem Faithful.discoverRoute {remembered : Remembered} (h : Faithful index remembered)
    (hdistinct : index.Distinct) (config : Config) (route : HostRoute) :
    ∃ after, Faithful index after ∧
      (discoverRoute config index route).run remembered =
        (endpointsOf config index route, after) := by
  unfold Route.discoverRoute endpointsOf
  split
  · next written hwritten =>
    split
    · obtain ⟨action, -, haction⟩ := Option.bind_eq_some_iff.mp hwritten
      obtain ⟨after, hafter, hrun⟩ := h.recallAnnotations
        (annotationsOfOwner_get?_qualified hdistinct (isTrimmed_of_writtenHandler? haction))
      refine ⟨after, hafter, ?_⟩
      rw [StateT.run_bind, hrun]
      rfl
    · exact ⟨remembered, h, rfl⟩
  · exact ⟨remembered, h, rfl⟩

/-- Routes are discovered as if nothing was remembered, and the memory stays faithful. -/
theorem Faithful.discoverRoutes {remembered : Remembered} (h : Faithful index remembered)
    (hdistinct : index.Distinct) (config : Config) (routes : List HostRoute) :
    ∃ after, Faithful index after ∧
      (routes.mapM (Route.discoverRoute config index)).run remembered =
        (routes.map (endpointsOf config index), after) := by
  -- each route leaves a faithful memory to the rest
  induction routes generalizing remembered with
  | nil => exact ⟨remembered, h, rfl⟩
  | cons route rest ih =>
      obtain ⟨between, hbetween, hfirst⟩ := h.discoverRoute hdistinct config route
      obtain ⟨after, hafter, hrest⟩ := ih hbetween
      refine ⟨after, hafter, ?_⟩
      rw [List.mapM_cons, StateT.run_bind, hfirst]
      show ((rest.mapM (Route.discoverRoute config index)) >>= fun found =>
        pure (endpointsOf config index route :: found)).run between = _
      rw [StateT.run_bind, hrest]
      rfl

/-- The memory never shows: what is discovered are the endpoints of the routes. -/
theorem discover_eq_endpoints (h : index.Distinct) (config : Config) (routes : List HostRoute) :
    discover config index routes = endpoints config index routes := by
  have hempty : Faithful index [] := by
    intro name annotations hread
    exact absurd hread.symm (Option.some_ne_none _)
  obtain ⟨after, -, hrun⟩ := hempty.discoverRoutes h config routes
  rw [discover, hrun, endpoints, List.flatMap]
  rfl

/-! ## Single routes -/

/-- What is found for a single route: nothing, unless its handler has a name and the filters let it
pass; otherwise one endpoint for each of its methods. -/
structure FoundAlone (config : Config) (index : Index) (route : HostRoute)
    (found : List Endpoint) : Prop where
  /-- Nothing is found for a handler without a name. -/
  unnamed : route.action.bind (writtenHandler? index) = none → found = []
  /-- Nothing is found for a route that the filters reject. -/
  rejected : ∀ handler, route.action.bind (writtenHandler? index) = some handler →
    isDocumented config route handler = false → found = []
  /-- The methods are those of the route in their order, `head` left out beside `get`. -/
  methods : ∀ handler, route.action.bind (writtenHandler? index) = some handler →
    isDocumented config route handler = true →
    found.map Endpoint.method =
      route.methods.filter fun method => ¬ (method = .head ∧ .get ∈ route.methods)
  /-- The annotations of the type are read off the attributes of the one that the handler names. -/
  typeAnnotations : ∀ handler, route.action.bind (writtenHandler? index) = some handler →
    ∀ e ∈ found, e.typeAnnotations =
      match index.find? handler.typeName with
      | some owner => .ofAttributes owner.attrs
      | none => []

/-- The endpoints of a route are what is found for it alone. -/
theorem foundAlone_endpointsOf (config : Config) (index : Index) (route : HostRoute) :
    FoundAlone config index route (endpointsOf config index route) where
  unnamed h := by rw [endpointsOf, h]
  rejected handler h hrejected := by
    rw [endpointsOf, h]
    simp [hrejected]
  methods handler h hdocumented := by
    rw [endpointsOf, h]
    simp only [hdocumented, if_true, endpointsWith, endpointsFor, documentedMethods, List.map_map]
    simp only [Function.comp_def, List.map_id']
    refine List.filter_congr fun method _ => ?_
    rw [Bool.eq_iff_iff]
    simp
  typeAnnotations handler h := by
    rw [endpointsOf, h]
    intro e he
    dsimp only at he
    split at he
    · obtain ⟨method, -, rfl⟩ := List.mem_map.mp he
      show annotationsOfOwner (index.find? handler.typeName) = _
      cases index.find? handler.typeName <;> rfl
    · exact absurd he List.not_mem_nil

/-- Routes are discovered one by one: what is found for several lists of routes is what is found
for each of them, and what is found for a single route depends on nothing but the route. -/
theorem discover_routeByRoute (config : Config) (files : List ModuleFile) :
    (∀ routes others : List HostRoute,
      discover config (.ofFiles files) (routes ++ others) =
        discover config (.ofFiles files) routes ++ discover config (.ofFiles files) others) ∧
      ∀ route : HostRoute,
        FoundAlone config (.ofFiles files) route (discover config (.ofFiles files) [route]) := by
  have hdistinct := Index.distinct_ofFiles files
  constructor
  · intro routes others
    rw [discover_eq_endpoints hdistinct, discover_eq_endpoints hdistinct,
      discover_eq_endpoints hdistinct, endpoints, List.flatMap_append]
    rfl
  · intro route
    rw [discover_eq_endpoints hdistinct, endpoints, List.flatMap_singleton]
    exact foundAlone_endpointsOf config _ route

end AnnotatedApi.Route
