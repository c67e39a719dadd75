import AnnotatedApi.Proofs.OpenApi.Parts
import AnnotatedApi.Proofs.Route.Memory
import AnnotatedApi.Proofs.Route.Placeholders
import Mathlib.Data.List.Forall2

/-! # Leading slashes do not matter

A host may write the address of a route with any number of slashes in front. The address is kept as
it is written, and whoever asks for it takes the slashes off, puts exactly one in front, or looks
for something else in it. So an address with more slashes is filtered in the same way, names the
same parameters, and leads to the same operation in the same place. -/

namespace AnnotatedApi

namespace Route

/-! ## Addresses -/

/-- An address with more slashes in front. -/
def slashed (n : Nat) (uri : String) : String :=
  String.ofList (List.replicate n '/') ++ uri

@[simp] theorem toList_slashed (n : Nat) (uri : String) :
    (slashed n uri).toList = List.replicate n '/' ++ uri.toList := by
  rw [slashed, String.toList_append, String.toList_ofList]

/-- All slashes in front are taken off. -/
@[simp] theorem trimLeadingSlashes_slashed (n : Nat) (uri : String) :
    Text.trimLeadingSlashes (slashed n uri) = Text.trimLeadingSlashes uri := by
  have hslashes : ∀ c ∈ List.replicate n '/', decide (c = '/') = true := by
    intro c hc
    rw [List.eq_of_mem_replicate hc]
    rfl
  rw [Text.trimLeadingSlashes, Text.trimLeadingSlashes, toList_slashed,
    List.dropWhile_append_of_pos hslashes]

/-- The address under which operations stand has one slash in front in any case. -/
@[simp] theorem pathOf_slashed (n : Nat) (uri : String) : pathOf (slashed n uri) = pathOf uri := by
  rw [pathOf, pathOf, trimLeadingSlashes_slashed]

/-- The placeholders are the same with more slashes. -/
@[simp] theorem placeholderNames_slashed (n : Nat) (uri : String) :
    placeholderNames (slashed n uri) = placeholderNames uri := by
  have hslashes : '\x7b' ∉ List.replicate n '/' :=
    fun hmem => absurd (List.eq_of_mem_replicate hmem) (by decide)
  rw [placeholderNames, placeholderNames, toList_slashed, placeholdersFrom_append hslashes]

/-- A character other than a slash stands in an address with more slashes as in the address. -/
theorem contains_slashed {c : Char} (h : c ≠ '/') (n : Nat) (uri : String) :
    (slashed n uri).toList.contains c = uri.toList.contains c := by
  rw [Bool.eq_iff_iff, List.contains_iff_mem, List.contains_iff_mem, toList_slashed,
    List.mem_append, List.mem_replicate]
  exact or_iff_right fun hslash => h hslash.2

end Route

/-! ## Routes and endpoints -/

/-- A route whose address has more slashes in front. -/
def HostRoute.slashed (n : Nat) (route : HostRoute) : HostRoute :=
  { route with uri := Route.slashed n route.uri }

namespace Route

/-- An endpoint whose address has more slashes in front. -/
def Endpoint.slashed (n : Nat) (e : Endpoint) : Endpoint :=
  { e with uri := Route.slashed n e.uri }

@[simp] theorem Endpoint.path_slashed (n : Nat) (e : Endpoint) : (e.slashed n).path = e.path :=
  pathOf_slashed n e.uri

/-- The filters look at an address without its leading slashes. -/
theorem isDocumented_slashed (config : Config) (n : Nat) (route : HostRoute) (handler : Handler) :
    isDocumented config (route.slashed n) handler = isDocumented config route handler := by
  rw [isDocumented, isDocumented, HostRoute.slashed, trimLeadingSlashes_slashed]

/-- The endpoints of a route with more slashes are its endpoints with more slashes. -/
theorem endpointsFor_slashed (n : Nat) (route : HostRoute) (handler : Handler)
    (owner : Option Source.TypeEntry) (typeAnnotations : Annotations) :
    endpointsFor (route.slashed n) handler owner typeAnnotations =
      (endpointsFor route handler owner typeAnnotations).map (Endpoint.slashed n) := by
  simp only [endpointsFor, HostRoute.slashed, placeholderNames_slashed, List.map_map]
  rfl

/-- Whether a route passes the filters or not, its endpoints with more slashes are those of the
route with more slashes. -/
theorem endpointsOf_slashed (config : Config) (index : Source.Index) (n : Nat)
    (route : HostRoute) :
    endpointsOf config index (route.slashed n) =
      (endpointsOf config index route).map (Endpoint.slashed n) := by
  have haction : (route.slashed n).action = route.action := rfl
  rw [endpointsOf, endpointsOf, haction]
  cases route.action.bind (writtenHandler? index) with
  | none => rfl
  | some handler =>
      dsimp only
      rw [isDocumented_slashed]
      split
      · exact endpointsFor_slashed n route _ _ _
      · rfl

end Route

/-! ## Operations -/

namespace OperationContext

open Route

variable (context : OperationContext)

/-- The responses ask for a placeholder in the address, which no slash is. -/
theorem responses_slashed (n : Nat) (e : Endpoint) :
    context.responses (e.slashed n) = context.responses e := by
  have hmethod : context.methodResponses (e.slashed n) = context.methodResponses e := by
    rw [methodResponses, methodResponses, Endpoint.slashed, contains_slashed (by decide)]
    rfl
  rw [responses, responses, hmethod]
  rfl

/-- An endpoint with more slashes has the same operation. -/
theorem shownOperation_slashed (n : Nat) (e : Endpoint) :
    context.shownOperation (e.slashed n) = context.shownOperation e := by
  have hid : operationId (e.slashed n) = operationId e := by
    rw [operationId, operationId, Endpoint.path_slashed]
    rfl
  have hsummary : conventionalSummary (e.slashed n) = conventionalSummary e := by
    rw [conventionalSummary, conventionalSummary, Endpoint.path_slashed]
    rfl
  have hdescription : conventionalDescription (e.slashed n) = conventionalDescription e := by
    rw [conventionalDescription, conventionalDescription, Endpoint.path_slashed]
    rfl
  -- nothing else in an operation comes from the address itself
  rw [shownOperation, hid, hsummary, hdescription, responses_slashed]
  rfl

end OperationContext

/-! ## Documents -/

namespace Document

open Route

/-- Endpoints with more slashes are added in the same way. -/
theorem addEndpoint_slashed (context : OperationContext) (document : Document) (n : Nat)
    (e : Endpoint) :
    addEndpoint context document (e.slashed n) = addEndpoint context document e := by
  have hoperation : context.operation? (e.slashed n) = context.operation? e := by
    rw [OperationContext.operation?, OperationContext.operation?, context.shownOperation_slashed]
    rfl
  rw [addEndpoint, addEndpoint, hoperation, Endpoint.path_slashed]
  rfl

/-- Endpoints with more slashes, some or all of them, make the same document. -/
theorem generate_slashed (config : Config) (endpoints : List (Endpoint × Nat))
    (models : List Model) :
    generate config (endpoints.map fun entry => entry.1.slashed entry.2) models =
      generate config (endpoints.map Prod.fst) models := by
  rw [generate, generate, List.foldl_map, List.foldl_map]
  simp only [addEndpoint_slashed]

/-- However many slashes are put in front of the addresses of routes, each route by itself, the
endpoints that are discovered are the same but for these slashes, and the document is the same. -/
theorem generate_discover_slashed (config : Config) (files : List Source.ModuleFile)
    (models : List Model) (routes : List (HostRoute × Nat)) :
    let given := discover config (.ofFiles files) (routes.map Prod.fst)
    let found := discover config (.ofFiles files) (routes.map fun entry =>
      entry.1.slashed entry.2)
    List.Forall₂ (fun e e' => ∃ n, e' = e.slashed n) given found ∧
      generate config found models = generate config given models := by
  have hdistinct := Source.Index.distinct_ofFiles files
  -- every endpoint goes with the slashes of the route that it comes from
  set marked : List (Endpoint × Nat) := routes.flatMap fun entry =>
    (endpointsOf config (.ofFiles files) entry.1).map fun e => (e, entry.2) with hmarked
  have hgiven : discover config (.ofFiles files) (routes.map Prod.fst) = marked.map Prod.fst := by
    rw [discover_eq_endpoints hdistinct, endpoints, List.flatMap_map, hmarked, List.map_flatMap]
    simp only [List.map_map, Function.comp_def, List.map_id']
  have hfound : discover config (.ofFiles files) (routes.map fun entry =>
      entry.1.slashed entry.2) = marked.map fun entry => entry.1.slashed entry.2 := by
    rw [discover_eq_endpoints hdistinct, endpoints, List.flatMap_map, hmarked, List.map_flatMap]
    simp only [endpointsOf_slashed, List.map_map, Function.comp_def]
  simp only [hgiven, hfound]
  refine ⟨?_, generate_slashed config marked models⟩
  rw [List.forall₂_map_left_iff, List.forall₂_map_right_iff, List.forall₂_same]
  exact fun entry _ => ⟨entry.2, rfl⟩

end Document

end AnnotatedApi
