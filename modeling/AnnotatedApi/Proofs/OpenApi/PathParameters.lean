import AnnotatedApi.Proofs.OpenApi.Answers
import AnnotatedApi.Proofs.Operation.Parameters
import AnnotatedApi.Proofs.Route.Discovery
import AnnotatedApi.Proofs.Route.Placeholders

/-! # Parameters in addresses

An operation stands under an address with templates, and each template should be the name of a
parameter in the address. Where a host does not tell the names and the handler declares none, the
parameters are the placeholders of the address, so the templates have them as their names exactly
when there is nothing to take off: an optional placeholder keeps its mark in the address and loses
it in the name of the parameter. -/

namespace AnnotatedApi

open Route

/-! ## Names in addresses -/

/-- The names of the parameters in the address. -/
def Operation.pathNames (o : Operation) : List String :=
  (o.parameters.filter fun p => p.location = .path).map Parameter.name

/-- The names in the address are those of the parameters of that location. -/
theorem Operation.mem_pathNames_iff {o : Operation} {name : String} :
    name ∈ o.pathNames ↔ HasParameter o.parameters .path name := by
  simp only [pathNames, HasParameter, List.mem_map, List.mem_filter, decide_eq_true_eq, and_assoc]

namespace OperationContext

/-- Where no parameter is declared, those in the address are the ones of the endpoint. -/
theorem mem_pathNames_shownOperation (context : OperationContext) {e : Endpoint}
    (h : e.methodAnnotations.parameters = []) {name : String} :
    name ∈ (context.shownOperation e).pathNames ↔ name ∈ e.parameters := by
  have hparameters : (context.shownOperation e).parameters =
      (discoveredParameters e).foldl addParameter [] := by
    show context.parameters e = _
    rw [parameters, h]
    rfl
  have hnone : ¬ HasParameter [] ParameterLocation.path name := by simp [HasParameter]
  rw [Operation.mem_pathNames_iff, hparameters, hasParameter_foldl_addParameter_iff,
    or_iff_right hnone]
  constructor
  · rintro ⟨p, hp, hpath, rfl⟩
    rw [discoveredParameters, List.mem_append] at hp
    rcases hp with hp | hp
    · obtain ⟨name, hname, rfl⟩ := List.mem_map.mp hp
      exact hname
    · -- what chooses a page is in the query
      split at hp
      · have hquery : ∀ q ∈ Parameter.pagination, q.location = .query := by decide
        rw [hquery p hp] at hpath
        exact absurd hpath (by decide)
      · exact absurd hp List.not_mem_nil
  · intro hname
    exact ⟨pathParameter e.wheres name,
      List.mem_append_left _ (List.mem_map_of_mem hname), rfl, rfl⟩

end OperationContext

namespace Document

/-! ## Generated documents -/

variable {config : Config} {index : Source.Index} {routes : List HostRoute} {models : List Model}

/-- The templates of an address are the names of its parameters exactly when every template is
plain, provided that no brace opens in a template. -/
theorem templateNames_eq_pathNames_iff {item : String × PathItem}
    (hitem : item ∈ (generate config (endpoints config index routes) models).paths)
    {stored : String × Operation} (hstored : stored ∈ item.2) {e : Endpoint}
    (he : Answers (shown (endpoints config index routes)) item.1 stored.1 e) {route : HostRoute}
    (hroute : e ∈ endpointsOf config index route) (hnames : route.parameters = none)
    (hdeclared : e.methodAnnotations.parameters = [])
    (hunnested : ∀ name ∈ templateNames item.1, '\x7b' ∉ name.toList) :
    (∀ name, name ∈ templateNames item.1 ↔ name ∈ stored.2.pathNames) ↔
      ∀ name ∈ templateNames item.1, IsPlain name.toList := by
  obtain ⟨other, hother, hoperation⟩ := exists_answers hitem hstored
  obtain rfl : e = other := he.unique hother
  have hof := isOf_of_mem_endpointsOf hroute
  have hpath : templateNames item.1 = templateNames route.uri := by
    rw [← he.mem.2.1, Endpoint.path, hof.uri, templateNames_pathOf]
  have hparameters : e.parameters = placeholderNames route.uri := by
    rw [hof.parameters, hnames, Option.getD_none]
  rw [hpath] at hunnested ⊢
  rw [← readsAlike_iff hunnested, ReadsAlike, hoperation]
  simp only [OperationContext.mem_pathNames_shownOperation _ hdeclared, hparameters]

/-- A task of a project, by the names of both. -/
def taskRoute : HostRoute where
  methods := [.get]
  uri := "/api/projects/\x7bproject\x7d/tasks/\x7btask\x7d"
  action := some (.reference "TaskController@show")

/-- Without marks and blanks the parameters are named like the templates. -/
theorem templateNames_eq_pathNames_taskRoute :
    ∃ item ∈ (generate {} (endpoints {} {} [taskRoute]) []).paths, ∃ stored ∈ item.2,
      templateNames item.1 = ["project", "task"] ∧
        ∀ name, name ∈ templateNames item.1 ↔ name ∈ stored.2.pathNames := by
  have hstands : ∃ item ∈ (generate {} (endpoints {} {} [taskRoute]) []).paths,
      ∃ stored ∈ item.2, templateNames item.1 = ["project", "task"] := by decide +kernel
  obtain ⟨item, hitem, stored, hstored, htemplates⟩ := hstands
  obtain ⟨e, he, -⟩ := exists_answers hitem hstored
  have hmem : e ∈ endpoints {} {} [taskRoute] := (mem_shown_iff.mp he.mem.1).1
  have hroute : e ∈ endpointsOf {} {} taskRoute := by
    rw [endpoints, List.flatMap_singleton] at hmem
    exact hmem
  have hdeclared : ∀ other ∈ endpointsOf {} {} taskRoute,
      other.methodAnnotations.parameters = [] := by decide +kernel
  refine ⟨item, hitem, stored, hstored, htemplates, ?_⟩
  refine (templateNames_eq_pathNames_iff hitem hstored he hroute rfl (hdeclared e hroute) ?_).mpr ?_
  · rw [htemplates]
    decide
  · rw [htemplates]
    decide

/-- The comments of a task; a single one may be chosen. -/
def commentRoute : HostRoute where
  methods := [.get]
  uri := "/api/tasks/\x7btask\x7d/comments/\x7bcomment?\x7d"
  action := some (.reference "CommentController@show")

/-- An optional placeholder keeps its mark in the address, and no parameter is named like it. -/
theorem templateNames_ne_pathNames_commentRoute :
    commentRoute.parameters = none ∧
      (∀ e ∈ endpoints {} {} [commentRoute], e.methodAnnotations.parameters = []) ∧
      ∃ item ∈ (generate {} (endpoints {} {} [commentRoute]) []).paths, ∃ stored ∈ item.2,
        "comment?" ∈ templateNames item.1 ∧ "comment?" ∉ stored.2.pathNames := by
  refine ⟨rfl, ?_, ?_⟩
  · decide +kernel
  · decide +kernel

end Document

end AnnotatedApi
