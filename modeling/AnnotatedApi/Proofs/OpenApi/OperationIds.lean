import AnnotatedApi.Proofs.OpenApi.Answers
import AnnotatedApi.Proofs.Route.Discovery
import AnnotatedApi.Proofs.Text.Blank
import Mathlib.Data.List.Pairwise

/-! # Identifiers of operations

Where no handler declares an identifier, an operation is identified by the name of its route or,
without one, by its method and its address. Nothing makes identifiers distinct: the methods of a
named route share its name, addresses can be spelled alike once punctuation and all that is not
ASCII are left out, and a route can be named like the identifier of another one. `Collide` lists
these cases, and they are all there are. -/

namespace AnnotatedApi

open Route

/-! ## Identifiers by method and address -/

/-- An address as identifiers spell it: slashes become underscores, and of the other characters only
letters and digits of ASCII and underscores are kept. Punctuation is left out, and so are letters
and digits beyond ASCII. -/
def spelledPath (path : String) : String :=
  String.ofList ((path.toList.map fun c => if c = '/' then '_' else c).filter fun c =>
    Text.isAsciiAlphanumeric c || c == '_')

theorem operationIdFor_eq (method : HttpMethod) (path : String) :
    operationIdFor method path = method.name ++ spelledPath path := rfl

/-- The spelling of an address starts with the underscore of its first slash. -/
theorem toList_spelledPath_pathOf (uri : String) :
    ∃ rest, (spelledPath (pathOf uri)).toList = '_' :: rest := by
  rw [spelledPath, String.toList_ofList, pathOf, String.toList_append]
  exact ⟨_, rfl⟩

/-- The name of a method has no underscore. -/
theorem HttpMethod.underscore_not_mem_name (method : HttpMethod) : '_' ∉ method.name.toList := by
  cases method <;> decide

/-- An identifier tells the method and the spelling of the address. -/
theorem operationIdFor_pathOf_inj {method method' : HttpMethod} {uri uri' : String} :
    operationIdFor method (pathOf uri) = operationIdFor method' (pathOf uri') ↔
      method = method' ∧ spelledPath (pathOf uri) = spelledPath (pathOf uri') := by
  rw [operationIdFor_eq, operationIdFor_eq]
  constructor
  · intro h
    obtain ⟨rest, hrest⟩ := toList_spelledPath_pathOf uri
    obtain ⟨rest', hrest'⟩ := toList_spelledPath_pathOf uri'
    -- the first underscore ends the name of the method
    have hchars := congrArg String.toList h
    rw [String.toList_append, String.toList_append, hrest, hrest'] at hchars
    obtain ⟨hname, htail⟩ := Text.eq_of_append_cons method.underscore_not_mem_name
      method'.underscore_not_mem_name hchars
    refine ⟨HttpMethod.name_injective (String.toList_inj.mp hname), ?_⟩
    rw [← String.toList_inj, hrest, hrest', htail]
  · rintro ⟨rfl, hpath⟩
    rw [hpath]

/-- An identifier by method and address is not empty. -/
theorem operationIdFor_ne_empty (method : HttpMethod) (path : String) :
    operationIdFor method path ≠ "" := by
  have hname : method.name ≠ "" := by cases method <;> decide
  rw [operationIdFor_eq, ne_eq, String.append_eq_empty_iff]
  exact fun h => hname h.1

/-! ## Collisions -/

/-- The routes have names that are not empty and different from one another, and no handler
declares an identifier. -/
structure NamedApart (config : Config) (index : Source.Index) (routes : List HostRoute) :
    Prop where
  nonempty : ∀ route ∈ routes, route.name ≠ some ""
  distinct : (routes.filterMap HostRoute.name).Nodup
  undeclared : ∀ e ∈ endpoints config index routes, givenText e.declared.operationId = none

/-- How two endpoints of different addresses or methods come to have one identifier. -/
inductive Collide (config : Config) (index : Source.Index) (routes : List HostRoute)
    (e e' : Endpoint) : Prop where
  /-- Both come from one named route, for different methods. -/
  | fanOut (route : HostRoute) (hroute : route ∈ routes) (hname : route.name ≠ none)
      (h : e ∈ endpointsOf config index route) (h' : e' ∈ endpointsOf config index route)
      (hmethod : e.method ≠ e'.method)
  /-- Neither has a name, and their different addresses are spelled alike. -/
  | spelling (hname : e.name = none) (hname' : e'.name = none) (hmethod : e.method = e'.method)
      (hpath : e.path ≠ e'.path) (hspelled : spelledPath e.path = spelledPath e'.path)
  /-- The first has a name, and it is the identifier of the second, which has none. -/
  | lent (hname : e.name = some (operationIdFor e'.method e'.path)) (hname' : e'.name = none)
  /-- The second has a name, and it is the identifier of the first, which has none. -/
  | borrowed (hname : e.name = none) (hname' : e'.name = some (operationIdFor e.method e.path))

/-- A name belongs to one route. -/
theorem HostRoute.eq_of_name_eq {routes : List HostRoute}
    (h : (routes.filterMap HostRoute.name).Nodup) {route route' : HostRoute}
    (hroute : route ∈ routes) (hroute' : route' ∈ routes) {name : String}
    (hname : route.name = some name) (hname' : route'.name = some name) : route = route' := by
  -- routes at different places have different names, if both have one
  rw [List.nodup_iff_pairwise_ne, List.pairwise_filterMap] at h
  by_contra hne
  have hsymm : Std.Symm fun a b : HostRoute =>
      ∀ n, a.name = some n → ∀ n', b.name = some n' → n ≠ n' :=
    ⟨fun a b hab n hn n' hn' => (hab n' hn' n hn).symm⟩
  exact h.forall hroute hroute' hne name hname name hname' rfl

section Collisions

variable {config : Config} {index : Source.Index} {routes : List HostRoute} {e e' : Endpoint}

/-- Where no identifier is declared, the name of the route is one, or else there is one by method
and address. -/
theorem NamedApart.operationId_eq (h : NamedApart config index routes)
    (he : e ∈ endpoints config index routes) :
    OperationContext.operationId e = e.name.getD (operationIdFor e.method e.path) := by
  rw [OperationContext.operationId, h.undeclared e he]
  rfl

/-- No identifier is empty. -/
theorem NamedApart.operationId_ne_empty (h : NamedApart config index routes)
    (he : e ∈ endpoints config index routes) : OperationContext.operationId e ≠ "" := by
  rw [h.operationId_eq he]
  obtain ⟨route, hroute, hof⟩ := mem_endpoints_iff.mp he
  cases hname : e.name with
  | none => exact operationIdFor_ne_empty _ _
  | some name =>
      rintro rfl
      rw [(isOf_of_mem_endpointsOf hof).name] at hname
      exact h.nonempty route hroute hname

/-- Endpoints of one name are those of one route, so only their methods can be different. -/
theorem NamedApart.collide_of_name_eq (h : NamedApart config index routes)
    (he : e ∈ endpoints config index routes) (he' : e' ∈ endpoints config index routes)
    (hne : ¬ (e.path = e'.path ∧ e.method = e'.method)) {name : String}
    (hname : e.name = some name) (hname' : e'.name = some name) :
    Collide config index routes e e' := by
  obtain ⟨route, hroute, hmem⟩ := mem_endpoints_iff.mp he
  obtain ⟨route', hroute', hmem'⟩ := mem_endpoints_iff.mp he'
  have hof := isOf_of_mem_endpointsOf hmem
  have hof' := isOf_of_mem_endpointsOf hmem'
  rw [hof.name] at hname
  rw [hof'.name] at hname'
  obtain rfl : route = route' :=
    HostRoute.eq_of_name_eq h.distinct hroute hroute' hname hname'
  have hpath : e.path = e'.path := by
    rw [Endpoint.path, Endpoint.path, hof.uri, hof'.uri]
  exact .fanOut route hroute (Option.ne_none_iff_exists'.mpr ⟨name, hname⟩) hmem hmem'
    fun hmethod => hne ⟨hpath, hmethod⟩

/-- Endpoints of one identifier collide. -/
theorem NamedApart.collide_of_operationId_eq (h : NamedApart config index routes)
    (he : e ∈ endpoints config index routes) (he' : e' ∈ endpoints config index routes)
    (hne : ¬ (e.path = e'.path ∧ e.method = e'.method))
    (hid : OperationContext.operationId e = OperationContext.operationId e') :
    Collide config index routes e e' := by
  rw [h.operationId_eq he, h.operationId_eq he'] at hid
  -- the identifier of each is its name or made of its method and address
  cases hname : e.name with
  | some name =>
      cases hname' : e'.name with
      | some name' =>
          rw [hname, hname', Option.getD_some, Option.getD_some] at hid
          exact h.collide_of_name_eq he he' hne hname (by rw [hname', hid])
      | none =>
          rw [hname, hname', Option.getD_some, Option.getD_none] at hid
          exact .lent (by rw [hname, hid]) hname'
  | none =>
      cases hname' : e'.name with
      | some name' =>
          rw [hname, hname', Option.getD_some, Option.getD_none] at hid
          exact .borrowed hname (by rw [hname', hid])
      | none =>
          rw [hname, hname', Option.getD_none, Option.getD_none, Endpoint.path, Endpoint.path,
            operationIdFor_pathOf_inj] at hid
          exact .spelling hname hname' hid.1 (fun hpath => hne ⟨hpath, hid.1⟩) hid.2

/-- Endpoints that collide have one identifier. -/
theorem NamedApart.operationId_eq_of_collide (h : NamedApart config index routes)
    (he : e ∈ endpoints config index routes) (he' : e' ∈ endpoints config index routes)
    (hcollide : Collide config index routes e e') :
    OperationContext.operationId e = OperationContext.operationId e' := by
  rw [h.operationId_eq he, h.operationId_eq he']
  cases hcollide with
  | fanOut route _ hname hmem hmem' _ =>
      obtain ⟨name, hsome⟩ := Option.ne_none_iff_exists'.mp hname
      rw [(isOf_of_mem_endpointsOf hmem).name, (isOf_of_mem_endpointsOf hmem').name, hsome]
      rfl
  | spelling hname hname' hmethod _ hspelled =>
      rw [hname, hname', Option.getD_none, Option.getD_none, operationIdFor_eq, operationIdFor_eq,
        hmethod, hspelled]
  | lent hname hname' => rw [hname, hname', Option.getD_some, Option.getD_none]
  | borrowed hname hname' => rw [hname, hname', Option.getD_some, Option.getD_none]

end Collisions

namespace Document

/-! ## Generated documents -/

/-- Every operation has an identifier that is not empty, and two operations under different
addresses or methods have the same one exactly when their endpoints collide. -/
structure IdentifiedOperations (config : Config) (index : Source.Index)
    (routes : List HostRoute) (document : Document) : Prop where
  identified : ∀ item ∈ document.paths, ∀ stored ∈ item.2,
    ∃ id, stored.2.operationId = some id ∧ id ≠ ""
  collisions : ∀ item ∈ document.paths, ∀ stored ∈ item.2,
    ∀ item' ∈ document.paths, ∀ stored' ∈ item'.2, (item.1, stored.1) ≠ (item'.1, stored'.1) →
      ∃ e e', Answers (shown (endpoints config index routes)) item.1 stored.1 e ∧
        Answers (shown (endpoints config index routes)) item'.1 stored'.1 e' ∧
        (stored.2.operationId = stored'.2.operationId ↔ Collide config index routes e e')

/-- Where routes are named apart and no handler declares an identifier, every operation is
identified, and identifiers collide in the listed cases only. -/
theorem identifiedOperations_generate {config : Config} {index : Source.Index}
    {routes : List HostRoute} (h : NamedApart config index routes) (models : List Model) :
    IdentifiedOperations config index routes
      (generate config (endpoints config index routes) models) := by
  constructor
  · intro item hitem stored hstored
    obtain ⟨e, he, hoperation⟩ := exists_answers hitem hstored
    refine ⟨OperationContext.operationId e, by rw [hoperation]; rfl, ?_⟩
    exact h.operationId_ne_empty (mem_shown_iff.mp he.mem.1).1
  · intro item hitem stored hstored item' hitem' stored' hstored' hne
    obtain ⟨e, he, hoperation⟩ := exists_answers hitem hstored
    obtain ⟨e', he', hoperation'⟩ := exists_answers hitem' hstored'
    refine ⟨e, e', he, he', ?_⟩
    have hid : stored.2.operationId = some (OperationContext.operationId e) := by
      rw [hoperation]
      rfl
    have hid' : stored'.2.operationId = some (OperationContext.operationId e') := by
      rw [hoperation']
      rfl
    rw [hid, hid', Option.some.injEq]
    obtain ⟨hmem, hpath, hmethod⟩ := he.mem
    obtain ⟨hmem', hpath', hmethod'⟩ := he'.mem
    have hendpoint := (mem_shown_iff.mp hmem).1
    have hendpoint' := (mem_shown_iff.mp hmem').1
    -- two operations are stored at two places, so their endpoints differ in path or method
    refine ⟨h.collide_of_operationId_eq hendpoint hendpoint' ?_,
      h.operationId_eq_of_collide hendpoint hendpoint'⟩
    rintro ⟨hsame, hsame'⟩
    refine hne ?_
    rw [← hpath, ← hmethod, ← hpath', ← hmethod', hsame, hsame']

/-- A named route for two methods, two addresses that differ in punctuation, and a route that is
named like the identifier of another one. -/
def collidingRoutes : List HostRoute :=
  [{ methods := [.put, .patch], uri := "/api/tasks/\x7btask\x7d",
     action := some (.reference "TaskController@update"), name := some "tasks.update" },
   { methods := [.get], uri := "/api/task-list",
     action := some (.reference "TaskController@list") },
   { methods := [.get], uri := "/api/tasklist",
     action := some (.reference "TaskController@list") },
   { methods := [.get], uri := "/api/reports",
     action := some (.reference "ReportController@index"), name := some "get_api_tasks" },
   { methods := [.get], uri := "/api/tasks",
     action := some (.reference "TaskController@index") }]

theorem namedApart_collidingRoutes : NamedApart {} {} collidingRoutes where
  nonempty := by decide
  distinct := by decide
  undeclared := by decide +kernel

/-- The collisions of these routes are among the listed cases. -/
theorem identifiedOperations_collidingRoutes :
    NamedApart {} {} collidingRoutes ∧
      IdentifiedOperations {} {} collidingRoutes
        (generate {} (endpoints {} {} collidingRoutes) []) :=
  ⟨namedApart_collidingRoutes, identifiedOperations_generate namedApart_collidingRoutes []⟩

/-- The identifier of the operation of an address and a method. -/
def operationIdAt? (document : Document) (path method : String) : Option String :=
  (document.operation? path method).bind Operation.operationId

/-- The names are apart, and still each case gives two operations one identifier. -/
theorem operationIdAt?_collidingRoutes :
    NamedApart {} {} collidingRoutes ∧
      (let document := generate {} (endpoints {} {} collidingRoutes) []
      document.operationIdAt? "/api/tasks/\x7btask\x7d" "put" = some "tasks.update" ∧
        document.operationIdAt? "/api/tasks/\x7btask\x7d" "patch" = some "tasks.update" ∧
        document.operationIdAt? "/api/task-list" "get" = some "get_api_tasklist" ∧
        document.operationIdAt? "/api/tasklist" "get" = some "get_api_tasklist" ∧
        document.operationIdAt? "/api/reports" "get" = some "get_api_tasks" ∧
        document.operationIdAt? "/api/tasks" "get" = some "get_api_tasks") :=
  ⟨namedApart_collidingRoutes, by decide +kernel⟩

end Document

end AnnotatedApi
