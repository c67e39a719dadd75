import AnnotatedApi.Proofs.OpenApi.Paths

/-! # The security of generated documents

A generated document only requires schemes that it has, and it only has complete ones. An operation
takes its requirements from a single source, the first that says anything, and keeps to it even
when all that it says is about schemes that are not there. -/

namespace AnnotatedApi

/-! ## The first source that says anything -/

/-- What is chosen among several lists: the first that is not empty, and nothing when all are. -/
inductive FirstSaid : List (List α) → List α → Prop where
  /-- The lists before the chosen one are empty, and it is not. -/
  | said (before : List (List α)) {after : List (List α)} {chosen : List α}
      (silent : ∀ list ∈ before, list = []) (ne_nil : chosen ≠ []) :
      FirstSaid (before ++ chosen :: after) chosen
  /-- All lists are empty. -/
  | silent {lists : List (List α)} (h : ∀ list ∈ lists, list = []) : FirstSaid lists []

/-- One more empty list in front changes nothing. -/
theorem FirstSaid.nil_cons {lists : List (List α)} {chosen : List α} (h : FirstSaid lists chosen) :
    FirstSaid ([] :: lists) chosen := by
  cases h with
  | said before hsilent hne =>
      exact .said ([] :: before) (List.forall_mem_cons.mpr ⟨rfl, hsilent⟩) hne
  | silent hsilent => exact .silent (List.forall_mem_cons.mpr ⟨rfl, hsilent⟩)

namespace OperationContext

/-- The first list that is not empty is chosen. -/
theorem firstSaid_firstNonEmpty (lists : List (List α)) :
    FirstSaid lists (firstNonEmpty lists) := by
  induction lists with
  | nil => exact .silent (List.forall_mem_nil _)
  | cons list rest ih =>
      cases list with
      | nil => exact ih.nil_cons
      | cons a list =>
          exact .said [] (List.forall_mem_nil _) (List.cons_ne_nil a list)

end OperationContext

/-! ## Requirements on schemes that are there -/

/-- Requirements that each name a scheme, and only schemes that are there. -/
def Grounded (schemes : List (String × SecurityScheme)) (requirements : List SecurityRequirement) :
    Prop :=
  ∀ requirement ∈ requirements,
    requirement ≠ [] ∧ ∀ entry ∈ requirement, entry.1 ∈ memberNames schemes

/-- What is left of requirements is about schemes that are there. -/
theorem grounded_pruneRequirements (schemes : List (String × SecurityScheme))
    (requirements : List SecurityRequirement) :
    Grounded schemes (pruneRequirements schemes requirements) := by
  intro requirement hrequirement
  rw [pruneRequirements, List.mem_filter] at hrequirement
  obtain ⟨hmem, hkept⟩ := hrequirement
  obtain ⟨original, -, rfl⟩ := List.mem_map.mp hmem
  refine ⟨by simpa using hkept, ?_⟩
  intro entry hentry
  rw [SecurityRequirement.prune, List.mem_filter] at hentry
  exact hasMember_iff.mp hentry.2

/-! ## The sources of an operation's requirements -/

namespace Route.Endpoint

/-- What the middleware of an endpoint requires: each of the schemes it names that are there. -/
def middlewareRequirements (schemes : List (String × SecurityScheme)) (e : Endpoint) :
    List SecurityRequirement :=
  ((e.middleware.flatMap OperationContext.middlewareSchemes).filter fun name =>
    name ∈ memberNames schemes).map fun name => [(name, [])]

/-- The sources of an endpoint's requirements: its operation, its handler, the handler's type and
its middleware. -/
def requirementSources (schemes : List (String × SecurityScheme)) (e : Endpoint) :
    List (List SecurityRequirement) :=
  [e.declared.security.getD [], e.methodAnnotations.security, e.typeAnnotations.security,
    e.middlewareRequirements schemes]

end Route.Endpoint

namespace OperationContext

variable (context : OperationContext) (e : Route.Endpoint)

/-- The requirements that apply to an endpoint come from the first source that says anything. -/
theorem firstSaid_applicableSecurity :
    FirstSaid (e.requirementSources context.schemes) (context.applicableSecurity e) := by
  have hmiddleware : context.middlewareSecurity e = e.middlewareRequirements context.schemes := by
    rw [middlewareSecurity, Route.Endpoint.middlewareRequirements]
    refine congrArg (List.map _) (List.filter_congr ?_)
    intro name _
    rw [Bool.eq_iff_iff, hasMember_iff, decide_eq_true_eq]
  rw [applicableSecurity, hmiddleware]
  exact firstSaid_firstNonEmpty _

/-- An operation requires what is left of the requirements that apply. -/
theorem getD_security? :
    (context.security? e).getD [] =
      pruneRequirements context.schemes (context.applicableSecurity e) := by
  rw [security?]
  cases pruneRequirements context.schemes (context.applicableSecurity e) <;> rfl

/-- An operation lists requirements only when there are some. -/
theorem ne_nil_of_mem_security? {requirements : List SecurityRequirement}
    (h : requirements ∈ context.security? e) : requirements ≠ [] := by
  rw [security?] at h
  split at h
  · exact absurd h (Option.not_mem_none _)
  · next hne =>
    rw [Option.mem_some_iff] at h
    rw [← h]
    exact hne

/-- The requirements that an operation lists are about schemes that are there. -/
theorem grounded_of_mem_security? {requirements : List SecurityRequirement}
    (h : requirements ∈ context.security? e) : Grounded context.schemes requirements := by
  have heq : (context.security? e).getD [] = requirements := by
    rw [Option.mem_def.mp h]
    rfl
  rw [← heq, getD_security?]
  exact grounded_pruneRequirements _ _

end OperationContext

/-! ## Generated documents -/

namespace Document

open Route

/-- The security of a document is about its own schemes, and each operation takes its requirements
from one source. -/
structure SecurityClosed (config : Config) (endpoints : List Endpoint) (document : Document) :
    Prop where
  /-- The schemes are the complete ones of the configuration. -/
  names : ∀ name, name ∈ memberNames document.components.securitySchemes ↔
    ∃ scheme, (name, scheme) ∈ config.securitySchemes ∧ scheme.defect? = none
  /-- No scheme has a defect. -/
  complete : ∀ entry ∈ document.components.securitySchemes, entry.2.defect? = none
  /-- What is required of all operations is what is left of what the configuration requires. -/
  shared : document.security =
    pruneRequirements document.components.securitySchemes config.security
  /-- What is required of all operations is about schemes that are there. -/
  grounded : Grounded document.components.securitySchemes document.security
  /-- An operation that lists requirements lists some, about schemes that are there. -/
  listed : ∀ item ∈ document.paths, ∀ stored ∈ item.2, ∀ requirements ∈ stored.2.security,
    requirements ≠ [] ∧ Grounded document.components.securitySchemes requirements
  /-- An operation lists what is left of the first source that says anything. When nothing is left
  of it, nothing is listed: no other source is looked at. -/
  chosen : ∀ item ∈ document.paths, ∀ stored ∈ item.2, ∃ method e source,
    stored.1 = method.name ∧ (answering endpoints item.1 method).getLast? = some e ∧
      FirstSaid (e.requirementSources document.components.securitySchemes) source ∧
      stored.2.security.getD [] =
        pruneRequirements document.components.securitySchemes source

/-- The schemes that are collected are the complete ones. -/
theorem mem_memberNames_schemesOf {config : Config} {name : String} :
    name ∈ memberNames (collectMembers (schemesOf config)) ↔
      ∃ scheme, (name, scheme) ∈ config.securitySchemes ∧ scheme.defect? = none := by
  rw [(firstSeen_collectMembers _).mem_iff, memberNames, List.mem_map]
  simp only [schemesOf, List.mem_filter, SecurityScheme.isComplete, Option.isNone_iff_eq_none,
    Prod.exists, exists_and_right, exists_eq_right]

/-- The security of a generated document is about its own schemes, and each operation takes its
requirements from one source. -/
theorem securityClosed_generate (config : Config) (endpoints : List Endpoint)
    (models : List Model) :
    SecurityClosed config (shown endpoints) (generate config endpoints models) := by
  -- operations are built with the schemes that the document has in the end
  let context := contextOf config models
  rw [generate_eq]
  refine ⟨fun name => mem_memberNames_schemesOf, ?_, rfl, ?_, ?_, ?_⟩
  · refine forall_mem_collectMembers ?_
    intro entry hentry
    exact Option.isNone_iff_eq_none.mp (List.mem_filter.mp hentry).2
  · exact grounded_pruneRequirements _ _
  · intro item hitem stored hstored requirements hrequirements
    obtain ⟨_, e, -, -, hoperation⟩ := exists_answering_of_mem_pathsOf context hitem hstored
    rw [hoperation] at hrequirements
    exact ⟨context.ne_nil_of_mem_security? e hrequirements,
      context.grounded_of_mem_security? e hrequirements⟩
  · intro item hitem stored hstored
    obtain ⟨method, e, hmethod, hlast, hoperation⟩ :=
      exists_answering_of_mem_pathsOf context hitem hstored
    refine ⟨method, e, context.applicableSecurity e, hmethod, hlast,
      context.firstSaid_applicableSecurity e, ?_⟩
    rw [hoperation]
    exact context.getD_security? e

end Document

end AnnotatedApi
