import AnnotatedApi.Proofs.OpenApi.Parts
import Mathlib.Data.Finset.Card
import Mathlib.Data.List.Nodup

/-! # Paths of generated documents

The operations of a document are filled in endpoint by endpoint, and a later endpoint of the same
address and method replaces an earlier one. `FaithfulPaths` says what this comes to: each address
and each method under it stands where an endpoint first has it and holds the operation of the last
endpoint that has it. -/

namespace AnnotatedApi

/-- Methods of different names are different. -/
theorem HttpMethod.name_injective : Function.Injective HttpMethod.name := by
  intro a b h
  cases a <;> cases b <;> first | rfl | exact absurd h (by decide)

namespace Document

open Route

variable (context : OperationContext)

/-! ## What paths should be -/

/-- The endpoints of an address and a method. -/
def answering (endpoints : List Endpoint) (path : String) (method : HttpMethod) : List Endpoint :=
  endpoints.filter fun e => e.path = path ∧ e.method = method

/-- The paths of a document are those of the endpoints, each operation that of the last endpoint of
its address and method. -/
structure FaithfulPaths (endpoints : List Endpoint) (document : Document) : Prop where
  /-- The addresses are those of the endpoints, in the order of first occurrence. -/
  addresses : FirstSeen (endpoints.map Endpoint.path) (memberNames document.paths)
  /-- The methods under an address are those of its endpoints, in the order of first occurrence. -/
  methods : ∀ entry ∈ document.paths,
    FirstSeen ((endpoints.filter fun e => e.path = entry.1).map fun e => e.method.name)
      (memberNames entry.2)
  /-- The operation of an address and a method is that of the last endpoint that has both. -/
  operations : ∀ path method, document.operation? path method.name =
    (answering endpoints path method).getLast?.bind context.operation?
  /-- There are as many operations as pairs of an address and a method. -/
  count : document.operationCount =
    (endpoints.map fun e => (e.path, e.method)).toFinset.card

/-! ## The operations of one address -/

/-- The operations of the endpoints of an address. -/
def itemOf (endpoints : List Endpoint) (path : String) : PathItem :=
  collectMembers ((endpoints.filter fun e => e.path = path).map fun e =>
    (e.method.name, context.shownOperation e))

/-- One more endpoint sets its operation at its address. -/
theorem itemOf_concat (endpoints : List Endpoint) (e : Endpoint) (path : String) :
    itemOf context (endpoints ++ [e]) path =
      if path = e.path then
        putMember e.method.name (context.shownOperation e) (itemOf context endpoints path)
      else itemOf context endpoints path := by
  rw [itemOf, List.filter_append, List.map_append]
  by_cases h : path = e.path
  · rw [if_pos h, List.filter_cons_of_pos (by simp [h])]
    exact collectMembers_concat _ _
  · rw [if_neg h, List.filter_cons_of_neg (by simp [Ne.symm h])]
    exact congrArg collectMembers (List.append_nil _)

/-- The methods under an address are those of its endpoints. -/
theorem memberNames_itemOf (endpoints : List Endpoint) (path : String) :
    memberNames (itemOf context endpoints path) =
      ((endpoints.filter fun e => e.path = path).map fun e => e.method.name).eraseDups := by
  rw [itemOf, memberNames_collectMembers, memberNames, List.map_map]
  rfl

/-- The operation of a method under an address is that of the last endpoint that has both. -/
theorem getMember?_itemOf (endpoints : List Endpoint) (path : String) (method : HttpMethod) :
    getMember? method.name (itemOf context endpoints path) =
      (answering endpoints path method).getLast?.map context.shownOperation := by
  -- methods are told apart by their names, so both filters together ask for the pair
  have hfilter : ((endpoints.filter fun e => e.path = path).filter
      ((fun entry : String × Operation => decide (entry.1 = method.name)) ∘
        fun e => (e.method.name, context.shownOperation e))) =
      answering endpoints path method := by
    rw [answering, List.filter_filter]
    refine List.filter_congr ?_
    intro e _
    simp [HttpMethod.name_injective.eq_iff, Bool.and_comm]
  rw [itemOf, getMember?_collectMembers, List.filter_map, hfilter, List.getLast?_map,
    Option.map_map]
  rfl

/-! ## All paths -/

/-- One more endpoint is put after all others. -/
theorem pathsOf_concat (endpoints : List Endpoint) (e : Endpoint) :
    pathsOf context (endpoints ++ [e]) = putOperation context (pathsOf context endpoints) e := by
  rw [pathsOf, List.foldl_append]
  rfl

/-- The addresses are those of the endpoints. -/
theorem memberNames_pathsOf (endpoints : List Endpoint) :
    memberNames (pathsOf context endpoints) = (endpoints.map Endpoint.path).eraseDups :=
  memberNames_foldl_putMember Endpoint.path (fun paths e =>
    putMember e.method.name (context.shownOperation e) ((getMember? e.path paths).getD []))
    endpoints

/-- Under each address stand the operations of its endpoints. -/
theorem getMember?_pathsOf (endpoints : List Endpoint) (path : String) :
    (getMember? path (pathsOf context endpoints)).getD [] = itemOf context endpoints path := by
  induction endpoints using List.reverseRecOn with
  | nil => rfl
  | append_singleton endpoints e ih =>
      rw [pathsOf_concat, putOperation, getMember?_putMember, itemOf_concat]
      by_cases h : path = e.path
      · -- what stood under the address so far is what the new operation is put into
        rw [if_pos h, if_pos h, Option.getD_some, ← h, ih]
      · rw [if_neg h, if_neg h, ih]

/-- No address is there twice. -/
theorem nodup_pathsOf (endpoints : List Endpoint) :
    (memberNames (pathsOf context endpoints)).Nodup := by
  rw [memberNames_pathsOf]
  exact nodup_eraseDups _

/-- What stands under an address are the operations of its endpoints. -/
theorem eq_itemOf_of_mem_pathsOf {endpoints : List Endpoint} {entry : String × PathItem}
    (h : entry ∈ pathsOf context endpoints) : entry.2 = itemOf context endpoints entry.1 := by
  have hread : getMember? entry.1 (pathsOf context endpoints) = some entry.2 :=
    (getMember?_eq_some_iff (nodup_pathsOf context endpoints)).mpr h
  rw [← getMember?_pathsOf, hread, Option.getD_some]

/-- Looking an operation up finds that of the last endpoint of its address and method. -/
theorem operation?_pathsOf {endpoints : List Endpoint} {document : Document}
    (h : document.paths = pathsOf context endpoints) (path : String) (method : HttpMethod) :
    document.operation? path method.name =
      (answering endpoints path method).getLast?.map context.shownOperation := by
  rw [← getMember?_itemOf, ← getMember?_pathsOf, operation?, h]
  cases getMember? path (pathsOf context endpoints) <;> rfl

/-- Every operation that is there is that of the last endpoint of its address and method. -/
theorem exists_answering_of_mem_pathsOf {endpoints : List Endpoint} {entry : String × PathItem}
    (hentry : entry ∈ pathsOf context endpoints) {stored : String × Operation}
    (hstored : stored ∈ entry.2) :
    ∃ method e, stored.1 = method.name ∧
      (answering endpoints entry.1 method).getLast? = some e ∧
      stored.2 = context.shownOperation e := by
  rw [eq_itemOf_of_mem_pathsOf context hentry] at hstored
  obtain ⟨e, -, heq⟩ : ∃ e ∈ endpoints.filter fun e => e.path = entry.1,
      e.method.name = stored.1 := by
    rw [← List.mem_map, ← List.mem_eraseDups, ← memberNames_itemOf context]
    exact mem_memberNames_of_mem hstored
  have hread : getMember? stored.1 (itemOf context endpoints entry.1) = some stored.2 :=
    (getMember?_eq_some_iff (nodup_collectMembers _)).mpr hstored
  rw [← heq, getMember?_itemOf, Option.map_eq_some_iff] at hread
  obtain ⟨last, hlast, hoperation⟩ := hread
  exact ⟨e.method, last, heq.symm, hlast, hoperation.symm⟩

/-! ## The number of operations -/

/-- The pairs of an address and a method's name under which operations stand. -/
def places (paths : List (String × PathItem)) : List (String × String) :=
  paths.flatMap fun entry => (memberNames entry.2).map fun name => (entry.1, name)

/-- There are as many places as operations. -/
theorem length_places (paths : List (String × PathItem)) :
    (places paths).length = (paths.flatMap Prod.snd).length := by
  simp only [places, memberNames, List.length_flatMap, List.length_map]

/-- No place is counted twice when no address and no method under one is there twice. -/
theorem nodup_places {paths : List (String × PathItem)} (h : (memberNames paths).Nodup)
    (hitems : ∀ entry ∈ paths, (memberNames entry.2).Nodup) : (places paths).Nodup := by
  rw [places, List.nodup_flatMap]
  refine ⟨?_, ?_⟩
  · intro entry hentry
    refine (hitems entry hentry).map ?_
    intro name other heq
    exact congrArg Prod.snd heq
  · rw [memberNames, List.nodup_iff_pairwise_ne, List.pairwise_map] at h
    refine h.imp ?_
    -- places under different addresses are different
    intro entry other hne
    refine List.disjoint_left.mpr ?_
    intro place hplace hother
    obtain ⟨name, -, rfl⟩ := List.mem_map.mp hplace
    obtain ⟨_, -, heq⟩ := List.mem_map.mp hother
    exact hne (congrArg Prod.fst heq).symm

/-- The places are those of the endpoints. -/
theorem mem_places_pathsOf_iff {endpoints : List Endpoint} {place : String × String} :
    place ∈ places (pathsOf context endpoints) ↔
      ∃ e ∈ endpoints, (e.path, e.method.name) = place := by
  rw [places, List.mem_flatMap]
  constructor
  · rintro ⟨entry, hentry, hplace⟩
    obtain ⟨name, hname, rfl⟩ := List.mem_map.mp hplace
    rw [eq_itemOf_of_mem_pathsOf context hentry, memberNames_itemOf, List.mem_eraseDups] at hname
    obtain ⟨e, he, rfl⟩ := List.mem_map.mp hname
    rw [List.mem_filter, decide_eq_true_eq] at he
    exact ⟨e, he.1, by rw [he.2]⟩
  · rintro ⟨e, he, rfl⟩
    have hpath : e.path ∈ memberNames (pathsOf context endpoints) := by
      rw [memberNames_pathsOf, List.mem_eraseDups]
      exact List.mem_map_of_mem he
    obtain ⟨entry, hentry, heq⟩ := List.mem_map.mp hpath
    refine ⟨entry, hentry, List.mem_map.mpr ⟨e.method.name, ?_, by rw [heq]⟩⟩
    rw [eq_itemOf_of_mem_pathsOf context hentry, memberNames_itemOf, List.mem_eraseDups]
    refine List.mem_map.mpr ⟨e, List.mem_filter.mpr ⟨he, ?_⟩, rfl⟩
    exact decide_eq_true heq.symm

/-- There are as many operations as pairs of an address and a method. -/
theorem length_operations_pathsOf (endpoints : List Endpoint) :
    ((pathsOf context endpoints).flatMap Prod.snd).length =
      (endpoints.map fun e => (e.path, e.method)).toFinset.card := by
  have hnodup : (places (pathsOf context endpoints)).Nodup := by
    refine nodup_places (nodup_pathsOf context endpoints) ?_
    intro entry hentry
    rw [eq_itemOf_of_mem_pathsOf context hentry, memberNames_itemOf]
    exact nodup_eraseDups _
  -- places name methods, so they are the image of the pairs under an injective function
  have hinjective : Function.Injective (Prod.map id HttpMethod.name : String × HttpMethod → _) :=
    Function.injective_id.prodMap HttpMethod.name_injective
  have hplaces : (places (pathsOf context endpoints)).toFinset =
      (endpoints.map fun e => (e.path, e.method)).toFinset.image (Prod.map id HttpMethod.name) := by
    ext place
    rw [List.mem_toFinset, mem_places_pathsOf_iff, Finset.mem_image]
    simp only [List.mem_toFinset, List.mem_map, exists_exists_and_eq_and]
    rfl
  calc
    ((pathsOf context endpoints).flatMap Prod.snd).length
        = (places (pathsOf context endpoints)).length := (length_places _).symm
    _ = (places (pathsOf context endpoints)).toFinset.card :=
      (List.toFinset_card_of_nodup hnodup).symm
    _ = (endpoints.map fun e => (e.path, e.method)).toFinset.card := by
      rw [hplaces, Finset.card_image_of_injective _ hinjective]

/-! ## Generated documents -/

/-- The last of the documented endpoints has an operation like each of them. -/
theorem map_shownOperation_getLast? (endpoints : List Endpoint) (path : String)
    (method : HttpMethod) :
    (answering (shown endpoints) path method).getLast?.map context.shownOperation =
      (answering (shown endpoints) path method).getLast?.bind context.operation? := by
  rw [Option.map_eq_bind]
  refine Option.bind_congr ?_
  intro e he
  have hmem : e ∈ shown endpoints := (List.mem_filter.mp (List.mem_of_getLast? he)).1
  exact (context.operation?_of_shown (mem_shown_iff.mp hmem).2).symm

/-- The paths of a generated document are those of the endpoints that are not hidden, and hidden
endpoints change nothing in it, wherever they stand. -/
theorem faithfulPaths_generate (config : Config) (endpoints : List Endpoint)
    (models : List Model) :
    FaithfulPaths (contextOf config models) (shown endpoints)
        (generate config endpoints models) ∧
      generate config (shown endpoints) models = generate config endpoints models := by
  have hpaths : (generate config endpoints models).paths =
      pathsOf (contextOf config models) (shown endpoints) := by
    rw [generate_eq]
  refine ⟨⟨?_, ?_, ?_, ?_⟩, ?_⟩
  · rw [hpaths, memberNames_pathsOf]
    exact firstSeen_eraseDups _
  · intro entry hentry
    rw [hpaths] at hentry
    rw [eq_itemOf_of_mem_pathsOf _ hentry, memberNames_itemOf]
    exact firstSeen_eraseDups _
  · intro path method
    rw [operation?_pathsOf _ hpaths, map_shownOperation_getLast?]
  · rw [operationCount, hpaths, length_operations_pathsOf]
  · -- endpoints only enter a document through those that are documented
    rw [generate_eq, generate_eq, shown_shown]

end Document

end AnnotatedApi
