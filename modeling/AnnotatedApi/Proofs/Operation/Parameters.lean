import AnnotatedApi.Proofs.Operation.Declared

/-! # The parameters of operations

A parameter is told by its name and its location. Conventions give parameters for an address and for
the pages of a list, and each of them is added unless one of its name and location is there, be it
declared or added before. So what is added has no repetitions, although names can come twice in an
address, and nothing that the conventions ask for is missing, although it may be declared. -/

namespace AnnotatedApi

open Route

/-! ## Adding parameters -/

/-- Whether there is a parameter of a location and a name. -/
def HasParameter (parameters : List Parameter) (location : ParameterLocation)
    (name : String) : Prop :=
  ∃ p ∈ parameters, p.location = location ∧ p.name = name

/-- The parameters of two lists. -/
theorem hasParameter_append_iff {parameters others : List Parameter}
    {location : ParameterLocation} {name : String} :
    HasParameter (parameters ++ others) location name ↔
      HasParameter parameters location name ∨ HasParameter others location name := by
  simp only [HasParameter, List.mem_append, or_and_right, exists_or]

namespace OperationContext

/-- Adding a parameter adds its location and name, even if it is left out as one of both is
there. -/
theorem hasParameter_addParameter_iff {parameters : List Parameter} {p : Parameter}
    {location : ParameterLocation} {name : String} :
    HasParameter (addParameter parameters p) location name ↔
      HasParameter parameters location name ∨ (p.location = location ∧ p.name = name) := by
  rw [addParameter]
  split
  · next h =>
    refine ⟨.inl, ?_⟩
    rintro (hold | ⟨rfl, rfl⟩)
    · exact hold
    · obtain ⟨q, hq, hsame⟩ := List.any_eq_true.mp h
      rw [Bool.and_eq_true, beq_iff_eq, beq_iff_eq] at hsame
      exact ⟨q, hq, hsame.2, hsame.1⟩
  · simp only [HasParameter, List.mem_append, List.mem_singleton, or_and_right, exists_or,
      exists_eq_left]

/-- Adding several parameters adds the location and the name of each. -/
theorem hasParameter_foldl_addParameter_iff {added parameters : List Parameter}
    {location : ParameterLocation} {name : String} :
    HasParameter (added.foldl addParameter parameters) location name ↔
      HasParameter parameters location name ∨ HasParameter added location name := by
  induction added generalizing parameters with
  | nil => simp [HasParameter]
  | cons p added ih =>
      rw [List.foldl_cons, ih, hasParameter_addParameter_iff, or_assoc]
      simp only [HasParameter, List.exists_mem_cons_iff]

/-- A parameter is left out where there is one of its location and name, and comes last
otherwise. -/
theorem addParameter_cases (parameters : List Parameter) (p : Parameter) :
    HasParameter parameters p.location p.name ∧ addParameter parameters p = parameters ∨
      ¬ HasParameter parameters p.location p.name ∧
        addParameter parameters p = parameters ++ [p] := by
  have hany : (parameters.any fun q => q.name == p.name && q.location == p.location) = true ↔
      HasParameter parameters p.location p.name := by
    simp only [List.any_eq_true, Bool.and_eq_true, beq_iff_eq, HasParameter, and_comm]
  rw [addParameter]
  by_cases h : HasParameter parameters p.location p.name
  · exact .inl ⟨h, if_pos (hany.mpr h)⟩
  · exact .inr ⟨h, if_neg (mt hany.mp h)⟩

end OperationContext

/-- Of the candidates, those were taken that are not there yet. -/
structure TakesNew (parameters candidates taken : List Parameter) : Prop where
  /-- Nothing but candidates is taken, in their order. -/
  sublist : taken.Sublist candidates
  /-- None that is taken has the location and name of one that was there. -/
  fresh : ∀ p ∈ taken, ¬ HasParameter parameters p.location p.name
  /-- No two that are taken have one location and name. -/
  distinct : taken.Pairwise fun p q => ¬ (p.location = q.location ∧ p.name = q.name)

namespace OperationContext

/-- Adding candidates one after the other takes the new ones, each after all that were there. -/
theorem exists_takesNew (candidates parameters : List Parameter) :
    ∃ taken, candidates.foldl addParameter parameters = parameters ++ taken ∧
      TakesNew parameters candidates taken := by
  induction candidates generalizing parameters with
  | nil => exact ⟨[], (List.append_nil _).symm, .slnil, List.forall_mem_nil _, .nil⟩
  | cons p candidates ih =>
      rw [List.foldl_cons]
      rcases addParameter_cases parameters p with ⟨-, hadd⟩ | ⟨hnew, hadd⟩
      · obtain ⟨taken, htaken, hsublist, hfresh, hdistinct⟩ := ih parameters
        rw [hadd]
        exact ⟨taken, htaken, hsublist.cons p, hfresh, hdistinct⟩
      · obtain ⟨taken, htaken, hsublist, hfresh, hdistinct⟩ := ih (parameters ++ [p])
        -- what is taken later differs from what was there and from the parameter itself
        have hlater : ∀ q ∈ taken, ¬ HasParameter parameters q.location q.name ∧
            ¬ (p.location = q.location ∧ p.name = q.name) := by
          intro q hq
          rw [← not_or, ← hasParameter_addParameter_iff, hadd]
          exact hfresh q hq
        refine ⟨p :: taken, ?_, hsublist.cons_cons p, ?_, ?_⟩
        · rw [hadd, htaken, List.append_assoc, List.singleton_append]
        · rw [List.forall_mem_cons]
          exact ⟨hnew, fun q hq => (hlater q hq).1⟩
        · rw [List.pairwise_cons]
          exact ⟨fun q hq => (hlater q hq).2, hdistinct⟩

end OperationContext

/-! ## Parameters by convention -/

/-- The names of the parameters that choose a page of a list and its order. -/
def pageNames : List String :=
  ["page", "per_page", "sort_by", "sort_direction"]

/-- The parameters that choose a page are in the query and have these names. -/
theorem hasParameter_pagination_iff {location : ParameterLocation} {name : String} :
    HasParameter Parameter.pagination location name ↔ location = .query ∧ name ∈ pageNames := by
  simp only [HasParameter, Parameter.pagination, Parameter.query, pageNames, List.mem_cons,
    List.not_mem_nil, or_false, or_and_right, exists_or, exists_eq_left]
  grind

/-- The parameters that are discovered fill in what is not declared: those parameters by convention
are taken whose location and name are new. -/
structure Route.Endpoint.Completes (e : Endpoint) (declared discovered : List Parameter) : Prop
    extends TakesNew declared (OperationContext.discoveredParameters e) discovered where
  /-- Every name in the address has a parameter. -/
  path : ∀ name ∈ e.parameters, HasParameter (declared ++ discovered) .path name
  /-- What is discovered in the address is required. -/
  required : ∀ p ∈ discovered, p.location = .path → p.required = true
  /-- A list has all parameters that choose a page. -/
  page : e.verb? = some .list → ∀ name ∈ pageNames,
    HasParameter (declared ++ discovered) .query name
  /-- Only names in the address are discovered, and for a list what chooses a page. -/
  only : ∀ p ∈ discovered, p.location = .path ∧ p.name ∈ e.parameters ∨
    e.verb? = some .list ∧ p.location = .query ∧ p.name ∈ pageNames

namespace OperationContext

/-- The conventions give the names in the address, and for a list what chooses a page. -/
theorem hasParameter_discoveredParameters_iff {e : Endpoint} {location : ParameterLocation}
    {name : String} :
    HasParameter (discoveredParameters e) location name ↔
      location = .path ∧ name ∈ e.parameters ∨
        e.verb? = some .list ∧ location = .query ∧ name ∈ pageNames := by
  have hpath : HasParameter (e.parameters.map (pathParameter e.wheres)) location name ↔
      location = .path ∧ name ∈ e.parameters := by
    constructor
    · rintro ⟨p, hp, rfl, rfl⟩
      obtain ⟨name, hmem, rfl⟩ := List.mem_map.mp hp
      exact ⟨rfl, hmem⟩
    · rintro ⟨rfl, hmem⟩
      exact ⟨pathParameter e.wheres name, List.mem_map_of_mem hmem, rfl, rfl⟩
  rw [discoveredParameters, hasParameter_append_iff, hpath]
  by_cases hlist : e.verb? = some .list
  · rw [if_pos (beq_iff_eq.mpr hlist), hasParameter_pagination_iff, and_iff_right hlist]
  · rw [if_neg (mt beq_iff_eq.mp hlist)]
    simp [HasParameter, hlist]

/-- What the conventions give in the address is required. -/
theorem required_of_mem_discoveredParameters {e : Endpoint} {p : Parameter}
    (h : p ∈ discoveredParameters e) (hpath : p.location = .path) : p.required = true := by
  rw [discoveredParameters, List.mem_append] at h
  rcases h with h | h
  · obtain ⟨name, -, rfl⟩ := List.mem_map.mp h
    rfl
  · split at h
    · have hquery := (hasParameter_pagination_iff.mp ⟨p, h, rfl, rfl⟩).1
      exact absurd (hpath.symm.trans hquery) (by decide)
    · exact absurd h List.not_mem_nil

/-- What is taken of the parameters by convention fills in what is not declared. -/
theorem completes_of_takesNew {e : Endpoint} {declared taken : List Parameter}
    (h : TakesNew declared (discoveredParameters e) taken)
    (hall : (discoveredParameters e).foldl addParameter declared = declared ++ taken) :
    e.Completes declared taken where
  toTakesNew := h
  path name hname := by
    rw [← hall, hasParameter_foldl_addParameter_iff, hasParameter_discoveredParameters_iff]
    exact .inr (.inl ⟨rfl, hname⟩)
  required p hp hpath := required_of_mem_discoveredParameters (h.sublist.subset hp) hpath
  page hlist name hname := by
    rw [← hall, hasParameter_foldl_addParameter_iff, hasParameter_discoveredParameters_iff]
    exact .inr (.inr ⟨hlist, rfl, hname⟩)
  only p hp := hasParameter_discoveredParameters_iff.mp ⟨p, h.sublist.subset hp, rfl, rfl⟩

/-- An endpoint that is not hidden has an operation. Its parameters are the declared ones in their
order, followed by discovered ones that fill in what is not declared. -/
theorem exists_completes_operation? (context : OperationContext) {e : Endpoint}
    (h : e.isHidden = false) :
    ∃ operation discovered, context.operation? e = some operation ∧
      operation.parameters =
        e.methodAnnotations.parameters.map context.declaredParameter ++ discovered ∧
      e.Completes (e.methodAnnotations.parameters.map context.declaredParameter) discovered := by
  obtain ⟨taken, hall, htaken⟩ := exists_takesNew (discoveredParameters e)
    (e.methodAnnotations.parameters.map context.declaredParameter)
  exact ⟨context.shownOperation e, taken, context.operation?_of_shown h, hall,
    completes_of_takesNew htaken hall⟩

/-- The handler that lists the tasks of a project, whose address names the project twice and has a
parameter that is named like the one that chooses a page. -/
def listProjectTasks : Endpoint where
  method := .get
  uri := "/projects/\x7bproject\x7d/\x7bproject\x7d/tasks/\x7bpage\x7d"
  parameters := ["project", "project", "page"]
  handler := some ⟨"TaskController", "index"⟩
  methodAnnotations := [.parameter { name := "page", location := .query }]

/-- The project comes once, and the declared page does not stand for the one in the address. -/
theorem exists_completes_listProjectTasks :
    listProjectTasks.isHidden = false ∧
      ∃ operation discovered, bare.operation? listProjectTasks = some operation ∧
        listProjectTasks.Completes
          (listProjectTasks.methodAnnotations.parameters.map bare.declaredParameter) discovered ∧
        operation.parameters.map (fun p => (p.location, p.name)) =
          [(.query, "page"), (.path, "project"), (.path, "page"), (.query, "per_page"),
            (.query, "sort_by"), (.query, "sort_direction")] := by
  have hshown : listProjectTasks.isHidden = false := rfl
  obtain ⟨operation, discovered, hoperation, -, hcompletes⟩ :=
    exists_completes_operation? bare hshown
  refine ⟨hshown, operation, discovered, hoperation, hcompletes, ?_⟩
  rw [← Option.some.inj hoperation]
  rfl

end OperationContext

end AnnotatedApi
