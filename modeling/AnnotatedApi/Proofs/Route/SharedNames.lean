import AnnotatedApi.Proofs.Route.RouterUnits

/-! # Router functions of one name

Units are known by the bare names of functions, so functions of one name in different modules are
one unit with the chains of both. Where a function nests two others of different names, its routes
are listed first and those of the two after that, each under their own prefix. Where the two have
one name, the routes of both are listed under both prefixes; and where the nesting function has the
name of a nested one, it nests itself, is no root, and none of the routes are listed. -/

namespace AnnotatedApi.Route

open Source

/-! ## Fuel -/

/-- The fuel suffices for the units within `outer`: these are different, and the units left are
fewer than the fuel. -/
structure Room (units : List (String × RouterUnit)) (fuel : Nat) (outer : List String) : Prop where
  nodup : outer.Nodup
  known : ∀ name ∈ outer, name ∈ memberNames units
  bound : units.length < fuel + outer.length

namespace Room

variable {units : List (String × RouterUnit)} {fuel : Nat} {outer : List String} {name : String}

/-- At a root there is room. -/
theorem root (units : List (String × RouterUnit)) : Room units (units.length + 1) [] where
  nodup := List.nodup_nil
  known := List.forall_mem_nil _
  bound := Nat.lt_succ_self _

/-- Different units cannot be more than there are. -/
theorem length_le (h : Room units fuel outer) : outer.length ≤ units.length := by
  have hle := (List.subperm_of_subset h.nodup h.known).length_le
  rwa [memberNames, List.length_map] at hle

theorem fuel_pos (h : Room units fuel outer) : 0 < fuel := by
  have hle := h.length_le
  have hlt := h.bound
  omega

/-- Listing a unit that is not listed already leaves room for what is nested in it. -/
theorem cons (h : Room units (fuel + 1) outer) (hnew : name ∉ outer)
    (hname : name ∈ memberNames units) : Room units fuel (name :: outer) where
  nodup := List.nodup_cons.mpr ⟨hnew, h.nodup⟩
  known := List.forall_mem_cons.mpr ⟨hname, h.known⟩
  bound := by
    have hlt := h.bound
    rw [List.length_cons]
    omega

end Room

/-- A route of a unit as it is listed under a prefix. -/
def UnitRoute.under (front : String) (route : UnitRoute) : HostRoute :=
  { methods := [route.method], uri := combine front route.path, action := route.action }

/-- The listing of a unit of the name within `outer`: its routes, then those of the units nested in
it. -/
theorem expandUnit_of_getMember? {units : List (String × RouterUnit)} {fuel : Nat}
    {outer : List String} {name : String} {unit : RouterUnit}
    (hnew : name ∉ outer) (hget : getMember? name units = some unit) (front : String) :
    expandUnit units (fuel + 1) outer front name =
      unit.routes.map (·.under front) ++
        unit.children.flatMap fun child =>
          expandUnit units fuel (name :: outer) (combine front child.1) child.2 := by
  rw [expandUnit, List.contains_eq_mem, decide_eq_false hnew, hget]
  rfl

/-- The listing of names that are closed under nesting depends on the units of these names only: not
on the fuel, on other units or on other names around. -/
theorem expandUnit_congr {units units' : List (String × RouterUnit)} {p : String → Prop}
    (hclosed : ∀ name unit, p name → getMember? name units = some unit →
      ∀ child ∈ unit.children, p child.2)
    (hsame : ∀ name, p name → getMember? name units = getMember? name units')
    {fuel fuel' : Nat} {outer outer' : List String} (hroom : Room units fuel outer)
    (hroom' : Room units' fuel' outer') (houter : ∀ name, p name → (name ∈ outer ↔ name ∈ outer'))
    {name : String} (hname : p name) (front : String) :
    expandUnit units fuel outer front name = expandUnit units' fuel' outer' front name := by
  -- both listings go through the same names, so neither runs out of fuel before the other
  induction fuel generalizing fuel' outer outer' front name with
  | zero => exact absurd hroom.fuel_pos (Nat.lt_irrefl 0)
  | succ fuel ih =>
      cases fuel' with
      | zero => exact absurd hroom'.fuel_pos (Nat.lt_irrefl 0)
      | succ fuel' =>
          by_cases hmem : name ∈ outer
          · have hmem' := (houter name hname).mp hmem
            rw [expandUnit, expandUnit, List.contains_eq_mem, List.contains_eq_mem,
              decide_eq_true hmem, decide_eq_true hmem']
            rfl
          · have hmem' : name ∉ outer' := fun h => hmem ((houter name hname).mpr h)
            cases hget : getMember? name units with
            | none =>
                have hget' := hsame name hname ▸ hget
                rw [expandUnit, expandUnit, List.contains_eq_mem, List.contains_eq_mem,
                  decide_eq_false hmem, decide_eq_false hmem', hget, hget']
            | some unit =>
                have hget' := hsame name hname ▸ hget
                rw [expandUnit_of_getMember? hmem hget, expandUnit_of_getMember? hmem' hget']
                congr 1
                refine List.flatMap_congr ?_
                intro child hchild
                refine ih (hroom.cons hmem ?_) (hroom'.cons hmem' ?_) ?_
                  (hclosed name unit hname hget child hchild) _
                · exact mem_memberNames_of_mem (mem_of_getMember? hget)
                · exact mem_memberNames_of_mem (mem_of_getMember? hget')
                · intro other hother
                  rw [List.mem_cons, List.mem_cons, houter other hother]

/-! ## Listing by definitions -/

/-- The routes of a function under a prefix, where the definitions are all there are. -/
def functionRoutes (definitions : List (String × RouterUnit)) (front name : String) :
    List HostRoute :=
  expandUnit (collectUnits definitions) ((collectUnits definitions).length + 1) [] front name

/-- The routes of a unit under a prefix: its own, then those of the functions that it nests, which
the definitions hold. -/
def listing (definitions : List (String × RouterUnit)) (front : String) (unit : RouterUnit) :
    List HostRoute :=
  unit.routes.map (·.under front) ++
    unit.children.flatMap fun child =>
      functionRoutes definitions (combine front child.1) child.2

/-- Where two units are one, the routes of both are listed under the prefix. -/
theorem listing_append_perm (definitions : List (String × RouterUnit)) (front : String)
    (u v : RouterUnit) :
    (listing definitions front (u ++ v)).Perm
      (listing definitions front u ++ listing definitions front v) := by
  simp only [listing, RouterUnit.routes_append, RouterUnit.children_append, List.map_append,
    List.flatMap_append]
  rw [List.append_assoc, List.append_assoc]
  refine List.Perm.append_left _ ?_
  rw [← List.append_assoc, ← List.append_assoc]
  exact List.Perm.append_right _ List.perm_append_comm

/-- The definitions of some names. -/
def among (names : List String) (definitions : List (String × RouterUnit)) :
    List (String × RouterUnit) :=
  definitions.filter fun definition => definition.1 ∈ names

/-- The definitions of all but some names. -/
def besides (names : List String) (definitions : List (String × RouterUnit)) :
    List (String × RouterUnit) :=
  definitions.filter fun definition => definition.1 ∉ names

section Closed

/-- The definitions of some names nest functions of these names only. -/
def ClosedUnder (p : String → Prop) (definitions : List (String × RouterUnit)) : Prop :=
  ∀ definition ∈ definitions, p definition.1 → ∀ child ∈ definition.2.children, p child.2

variable {definitions : List (String × RouterUnit)} {p : String → Prop}

/-- The units of names that are closed under nesting nest these names only. -/
theorem ClosedUnder.children (h : ClosedUnder p definitions) {name : String} {unit : RouterUnit}
    (hname : p name) (hget : getMember? name (collectUnits definitions) = some unit) :
    ∀ child ∈ unit.children, p child.2 := by
  intro child hchild
  rw [getMember?_collectUnits] at hget
  split at hget
  · rw [Option.some.injEq] at hget
    rw [← hget, mem_children_unitNamed_iff] at hchild
    obtain ⟨definition, hdefinition, rfl, hmem⟩ := hchild
    exact h definition hdefinition hname child hmem
  · exact absurd hget (Option.some_ne_none _).symm

variable [DecidablePred p]

instance ClosedUnder.decidable : Decidable (ClosedUnder p definitions) :=
  inferInstanceAs (Decidable
    (∀ definition ∈ definitions, p definition.1 → ∀ child ∈ definition.2.children, p child.2))

/-- The names of the definitions of some names. -/
theorem memberNames_filter (definitions : List (String × RouterUnit)) (p : String → Prop)
    [DecidablePred p] :
    memberNames (definitions.filter fun definition => p definition.1) =
      (memberNames definitions).filter p := by
  rw [memberNames, memberNames, List.filter_map]
  rfl

/-- The units of some names are those of their definitions. -/
theorem getMember?_collectUnits_filter {name : String} (hname : p name) :
    getMember? name (collectUnits (definitions.filter fun definition => p definition.1)) =
      getMember? name (collectUnits definitions) := by
  have hunit : unitNamed name (definitions.filter fun definition => p definition.1) =
      unitNamed name definitions := by
    rw [unitNamed, unitNamed, List.filter_filter]
    congr 2
    refine List.filter_congr ?_
    intro definition _
    by_cases h : definition.1 = name
    · simp [h, hname]
    · simp [h]
  have hmem : name ∈ memberNames (definitions.filter fun definition => p definition.1) ↔
      name ∈ memberNames definitions := by
    rw [memberNames_filter, List.mem_filter]
    exact and_iff_left (decide_eq_true hname)
  rw [getMember?_collectUnits, getMember?_collectUnits, hunit]
  simp only [hmem]

/-- A function of names that are closed under nesting is listed as if there were no others. -/
theorem expandUnit_eq_functionRoutes (h : ClosedUnder p definitions) {fuel : Nat}
    {outer : List String} (hroom : Room (collectUnits definitions) fuel outer)
    (houter : ∀ name ∈ outer, ¬ p name) {name : String} (hname : p name) (front : String) :
    expandUnit (collectUnits definitions) fuel outer front name =
      functionRoutes (definitions.filter fun definition => p definition.1) front name := by
  have hsame (other : String) (hother : p other) : getMember? other (collectUnits definitions) =
      getMember? other (collectUnits (definitions.filter fun definition => p definition.1)) :=
    (getMember?_collectUnits_filter hother).symm
  refine expandUnit_congr (fun _ _ => h.children) hsame hroom (Room.root _) ?_ hname front
  intro other hother
  exact iff_of_false (fun hmem => houter other hmem hother) List.not_mem_nil

/-- A function that nests functions of such names only is listed with their routes. -/
theorem expandUnit_eq_listing (h : ClosedUnder p definitions) {fuel : Nat}
    {outer : List String} (hroom : Room (collectUnits definitions) fuel outer)
    (houter : ∀ name ∈ outer, ¬ p name) {name : String} (hdefined : name ∈ memberNames definitions)
    (hnew : name ∉ outer) (hname : ¬ p name)
    (hchildren : ∀ child ∈ (unitNamed name definitions).children, p child.2) (front : String) :
    expandUnit (collectUnits definitions) fuel outer front name =
      listing (definitions.filter fun definition => p definition.1) front
        (unitNamed name definitions) := by
  obtain ⟨fuel, rfl⟩ := Nat.exists_eq_add_one.mpr hroom.fuel_pos
  have hget := getMember?_collectUnits name definitions
  rw [if_pos hdefined] at hget
  rw [expandUnit_of_getMember? hnew hget, listing]
  congr 1
  refine List.flatMap_congr ?_
  intro child hchild
  refine expandUnit_eq_functionRoutes h (hroom.cons hnew ?_) ?_ (hchildren child hchild) _
  · exact mem_memberNames_of_mem (mem_of_getMember? hget)
  · exact List.forall_mem_cons.mpr ⟨hname, houter⟩

/-- Whether nothing nests a name is left to definitions of other such names to say. -/
theorem rootNames_collectUnits_filter (h : ClosedUnder (fun name => ¬ p name) definitions) :
    rootNames (collectUnits (definitions.filter fun definition => p definition.1)) =
      (rootNames (collectUnits definitions)).filter p := by
  have hnested {name : String} (hname : p name) :
      name ∈ nestedNames (definitions.filter fun definition => p definition.1) ↔
        name ∈ nestedNames definitions := by
    simp only [nestedNames, List.mem_flatMap, List.mem_map, List.mem_filter, decide_eq_true_eq]
    constructor
    · rintro ⟨definition, ⟨hdefinition, -⟩, hchild⟩
      exact ⟨definition, hdefinition, hchild⟩
    · rintro ⟨definition, hdefinition, child, hchild, rfl⟩
      refine ⟨definition, ⟨hdefinition, ?_⟩, child, hchild, rfl⟩
      by_contra hother
      exact h definition hdefinition hother child hchild hname
  rw [rootNames, rootNames, memberNames_collectUnits, memberNames_collectUnits, memberNames_filter,
    eraseDups_filter, List.filter_filter, List.filter_filter]
  refine List.filter_congr ?_
  intro name _
  by_cases hname : p name
  · simp only [hname, List.contains_eq_mem, mem_nestedNames_collectUnits_iff, hnested hname,
      decide_true, Bool.and_true, Bool.true_and]
  · simp only [hname, decide_false, Bool.and_false, Bool.false_and]

/-- The roots are the defined names that no definition nests. -/
theorem mem_rootNames_collectUnits_iff {definitions : List (String × RouterUnit)} {name : String} :
    name ∈ rootNames (collectUnits definitions) ↔
      name ∈ memberNames definitions ∧ name ∉ nestedNames definitions := by
  rw [rootNames, List.mem_filter, memberNames_collectUnits, List.mem_eraseDups,
    List.contains_eq_mem, Bool.not_eq_true', decide_eq_false_iff_not,
    mem_nestedNames_collectUnits_iff]

/-- No root is there twice. -/
theorem nodup_rootNames_collectUnits (definitions : List (String × RouterUnit)) :
    (rootNames (collectUnits definitions)).Nodup := by
  rw [rootNames, memberNames_collectUnits]
  exact (nodup_eraseDups _).filter _

end Closed

/-! ## Blocks -/

/-- All elements are a block and others, which keep their order before and after it. -/
def StandsAmong (block others all : List α) : Prop :=
  ∃ before after, all = before ++ block ++ after ∧ others = before ++ after

section Roots

variable {definitions : List (String × RouterUnit)} {p : String → Prop} [DecidablePred p]

/-- Where two sets of names do not nest each other's functions and the roots of one of them stand
together, their routes stand among those that the definitions of the other set have on their own. -/
theorem expandUnits_standsAmong (h : ClosedUnder p definitions)
    (h' : ClosedUnder (fun name => ¬ p name) definitions) (before block after : List String)
    (hroots : rootNames (collectUnits definitions) = before ++ block ++ after)
    (hblock : ∀ name ∈ block, ¬ p name) (hothers : ∀ name ∈ before ++ after, p name) :
    StandsAmong (block.flatMap (functionRoutes definitions ""))
      (expandUnits (collectUnits (definitions.filter fun definition => p definition.1)))
      (expandUnits (collectUnits definitions)) := by
  have hkept : (rootNames (collectUnits definitions)).filter p = before ++ after := by
    rw [List.forall_mem_append] at hothers
    have hnone : block.filter p = [] := by simpa [List.filter_eq_nil_iff] using hblock
    have hbefore : before.filter p = before := by simpa [List.filter_eq_self] using hothers.1
    have hafter : after.filter p = after := by simpa [List.filter_eq_self] using hothers.2
    rw [hroots, List.filter_append, List.filter_append, hnone, hbefore, hafter, List.append_nil]
  have hroutes : (before ++ after).flatMap
      (functionRoutes (definitions.filter fun definition => p definition.1) "") =
        (before ++ after).flatMap (functionRoutes definitions "") := by
    refine List.flatMap_congr ?_
    intro name hname
    exact (expandUnit_eq_functionRoutes h (Room.root _) (List.forall_mem_nil _)
      (hothers name hname) "").symm
  -- the others are listed as they are without the block, and in the same order
  refine ⟨before.flatMap (functionRoutes definitions ""),
    after.flatMap (functionRoutes definitions ""), ?_, ?_⟩
  · rw [← List.flatMap_append, ← List.flatMap_append, ← hroots]
    rfl
  · rw [← List.flatMap_append, ← hroutes, ← hkept, ← rootNames_collectUnits_filter h']
    rfl

end Roots

/-! ## A root that nests two functions -/

/-- The unit of a function that has routes of its own and nests two functions under prefixes. -/
def nestingUnit (own : List UnitRoute) (p₁ first p₂ second : String) : RouterUnit where
  routes := own
  children := [(p₁, first), (p₂, second)]

/-- Among the definitions is a root function with routes of its own that nests two functions under
prefixes, first the one and then the other. `below` has the names of all functions that these two
nest, be it by way of others. -/
structure NestsTwo (definitions : List (String × RouterUnit)) (root : String)
    (own : List UnitRoute) (p₁ p₂ : String) (first second : String × RouterUnit)
    (below : List String) : Prop where
  /-- The three names are defined once for each of the three functions. -/
  defined : (definitions.filter fun definition =>
      definition.1 ∈ [root, first.1, second.1]).Perm
    [(root, nestingUnit own p₁ first.1 p₂ second.1), first, second]
  apart : ∀ name ∈ below, name ∉ [root, first.1, second.1]
  first_children : ∀ child ∈ first.2.children, child.2 ∈ below
  second_children : ∀ child ∈ second.2.children, child.2 ∈ below
  closed : ClosedUnder (· ∈ below) definitions
  nested : ∀ name ∈ below, name ∈ nestedNames definitions
  /-- Other functions nest none of these. -/
  others : ClosedUnder (· ∉ [root, first.1, second.1] ++ below) definitions

namespace NestsTwo

variable {definitions : List (String × RouterUnit)} {root : String} {own : List UnitRoute}
  {p₁ p₂ : String} {first second : String × RouterUnit} {below : List String}

/-- The root is defined. -/
theorem root_mem (h : NestsTwo definitions root own p₁ p₂ first second below) :
    (root, nestingUnit own p₁ first.1 p₂ second.1) ∈ definitions :=
  List.mem_of_mem_filter (h.defined.mem_iff.mpr List.mem_cons_self)

/-- The functions that the root nests are defined. -/
theorem nested_mem (h : NestsTwo definitions root own p₁ p₂ first second below) :
    first ∈ definitions ∧ second ∈ definitions :=
  ⟨List.mem_of_mem_filter (h.defined.mem_iff.mpr (by simp)),
    List.mem_of_mem_filter (h.defined.mem_iff.mpr (by simp))⟩

/-- A definition of one of the three names is that of one of the three functions. -/
theorem eq_of_mem (h : NestsTwo definitions root own p₁ p₂ first second below)
    {definition : String × RouterUnit} (hdefinition : definition ∈ definitions)
    (hname : definition.1 ∈ [root, first.1, second.1]) :
    definition = (root, nestingUnit own p₁ first.1 p₂ second.1) ∨
      definition = first ∨ definition = second := by
  have hmem := h.defined.mem_iff.mp (List.mem_filter.mpr ⟨hdefinition, decide_eq_true hname⟩)
  simpa only [List.mem_cons, List.not_mem_nil, or_false] using hmem

/-- The functions of the three names are defined. -/
theorem mem_memberNames (h : NestsTwo definitions root own p₁ p₂ first second below)
    {name : String} (hname : name ∈ [root, first.1, second.1]) :
    name ∈ memberNames definitions := by
  simp only [List.mem_cons, List.not_mem_nil, or_false] at hname
  rcases hname with rfl | rfl | rfl
  · exact mem_memberNames_of_mem h.root_mem
  · exact mem_memberNames_of_mem h.nested_mem.1
  · exact mem_memberNames_of_mem h.nested_mem.2

/-- The definitions of one of the three names. -/
theorem filter_perm (h : NestsTwo definitions root own p₁ p₂ first second below) (name : String)
    (hname : name ∈ [root, first.1, second.1]) :
    (definitions.filter fun definition => definition.1 = name).Perm
      ([(root, nestingUnit own p₁ first.1 p₂ second.1), first,
        second].filter fun definition => definition.1 = name) := by
  have hperm := h.defined.filter fun definition => definition.1 = name
  rw [List.filter_filter] at hperm
  refine (List.Perm.of_eq (List.filter_congr ?_)).trans hperm
  intro definition _
  by_cases heq : definition.1 = name
  · simp only [heq, hname, decide_true, Bool.and_true]
  · simp only [heq, decide_false, Bool.false_and]

/-- The functions of the root nest none but each other. -/
theorem closed_all (h : NestsTwo definitions root own p₁ p₂ first second below) :
    ClosedUnder (fun name => ¬ name ∉ [root, first.1, second.1] ++ below) definitions := by
  intro definition hdefinition hname child hchild
  rw [not_not, List.mem_append] at hname
  rw [not_not]
  rcases hname with hthree | hbelow
  · rcases h.eq_of_mem hdefinition hthree with rfl | rfl | rfl
    · -- the root nests the two functions themselves
      rcases List.mem_pair.mp hchild with rfl | rfl
      · simp
      · simp
    · exact List.mem_append_right _ (h.first_children child hchild)
    · exact List.mem_append_right _ (h.second_children child hchild)
  · exact List.mem_append_right _ (h.closed definition hdefinition hbelow child hchild)

/-- The root is nested nowhere, unless it has the name of one of the two functions. -/
theorem root_mem_nestedNames_iff (h : NestsTwo definitions root own p₁ p₂ first second below) :
    root ∈ nestedNames definitions ↔ root = first.1 ∨ root = second.1 := by
  simp only [nestedNames, List.mem_flatMap, List.mem_map]
  constructor
  · rintro ⟨definition, hdefinition, child, hchild, heq⟩
    have hbelow : child.2 ∉ below := fun hmem =>
      h.apart _ hmem (heq ▸ List.mem_cons_self)
    -- only the root nests the two functions, and all others stay below or elsewhere
    by_cases hname : definition.1 ∈ [root, first.1, second.1] ++ below
    · rcases List.mem_append.mp hname with hthree | hmem
      · rcases h.eq_of_mem hdefinition hthree with rfl | rfl | rfl
        · rcases List.mem_pair.mp hchild with rfl | rfl
          · exact .inl heq.symm
          · exact .inr heq.symm
        · exact absurd (h.first_children child hchild) hbelow
        · exact absurd (h.second_children child hchild) hbelow
      · exact absurd (h.closed definition hdefinition hmem child hchild) hbelow
    · refine absurd ?_ (h.others definition hdefinition hname child hchild)
      rw [heq]
      exact List.mem_append_left _ List.mem_cons_self
  · rintro (heq | heq)
    · exact ⟨_, h.root_mem, (p₁, first.1), List.mem_cons_self, heq.symm⟩
    · exact ⟨_, h.root_mem, (p₂, second.1), List.mem_pair.mpr (.inr rfl), heq.symm⟩

/-- Of all these functions only the root can be one of the roots. -/
theorem mem_rootNames_iff (h : NestsTwo definitions root own p₁ p₂ first second below)
    {name : String} (hname : name ∈ [root, first.1, second.1] ++ below) :
    name ∈ rootNames (collectUnits definitions) ↔
      name = root ∧ root ≠ first.1 ∧ root ≠ second.1 := by
  have hnested {child : String × String}
      (hchild : child ∈ [(p₁, first.1), (p₂, second.1)]) : child.2 ∈ nestedNames definitions :=
    List.mem_flatMap.mpr ⟨_, h.root_mem, List.mem_map_of_mem hchild⟩
  rw [mem_rootNames_collectUnits_iff, ← not_or, ← h.root_mem_nestedNames_iff]
  constructor
  · rintro ⟨-, hnot⟩
    rcases List.mem_append.mp hname with hthree | hbelow
    · simp only [List.mem_cons, List.not_mem_nil, or_false] at hthree
      rcases hthree with rfl | rfl | rfl
      · exact ⟨rfl, hnot⟩
      · exact absurd (hnested List.mem_cons_self) hnot
      · exact absurd (hnested (List.mem_cons_of_mem _ List.mem_cons_self)) hnot
    · exact absurd (h.nested name hbelow) hnot
  · rintro ⟨rfl, hnot⟩
    exact ⟨mem_memberNames_of_mem h.root_mem, hnot⟩

/-- What the two functions nest is below, whichever of them have the name. -/
theorem children_unitNamed (h : NestsTwo definitions root own p₁ p₂ first second below)
    {name : String} (hname : name ∈ [first.1, second.1]) (hroot : name ≠ root) :
    ∀ child ∈ (unitNamed name definitions).children, child.2 ∈ below := by
  intro child hchild
  obtain ⟨definition, hdefinition, rfl, hmem⟩ := mem_children_unitNamed_iff.mp hchild
  rcases h.eq_of_mem hdefinition (List.mem_cons_of_mem _ hname) with rfl | rfl | rfl
  · exact absurd rfl hroot
  · exact h.first_children child hmem
  · exact h.second_children child hmem

/-- A root that is listed comes first, and then the functions that it nests, each as all functions
of its name together. -/
theorem functionRoutes_root (h : NestsTwo definitions root own p₁ p₂ first second below)
    (hfirst : root ≠ first.1) (hsecond : root ≠ second.1) :
    functionRoutes definitions "" root =
      own.map (·.under "") ++
        listing (among below definitions) p₁ (unitNamed first.1 definitions) ++
        listing (among below definitions) p₂ (unitNamed second.1 definitions) := by
  -- no other definition has the name of the root
  have hunit : unitNamed root definitions = nestingUnit own p₁ first.1 p₂ second.1 := by
    have hperm := h.filter_perm root List.mem_cons_self
    simp only [List.filter_cons, decide_true, if_true, decide_eq_true_eq, if_neg (Ne.symm hfirst),
      if_neg (Ne.symm hsecond), List.filter_nil] at hperm
    exact unitNamed_of_perm_singleton hperm
  have hget := getMember?_collectUnits root definitions
  rw [if_pos (mem_memberNames_of_mem h.root_mem), hunit] at hget
  have hroom : Room (collectUnits definitions) (collectUnits definitions).length [root] :=
    (Room.root _).cons List.not_mem_nil (mem_memberNames_of_mem (mem_of_getMember? hget))
  have hbelow : root ∉ below := fun hmem => h.apart root hmem List.mem_cons_self
  -- what the two functions nest is below, where the root does not occur
  have hlisting {name : String} (hname : name ∈ [first.1, second.1]) (hne : name ≠ root)
      (front : String) :
      expandUnit (collectUnits definitions) (collectUnits definitions).length [root] front name =
        listing (among below definitions) front (unitNamed name definitions) := by
    refine expandUnit_eq_listing h.closed hroom (List.forall_mem_singleton.mpr hbelow)
      (h.mem_memberNames (List.mem_cons_of_mem _ hname)) (fun hmem => ?_) (fun hmem => ?_)
      (h.children_unitNamed hname hne) front
    · exact hne (List.mem_singleton.mp hmem)
    · exact h.apart name hmem (List.mem_cons_of_mem _ hname)
  rw [functionRoutes, expandUnit_of_getMember? List.not_mem_nil hget]
  simp only [nestingUnit, List.flatMap_cons, List.flatMap_nil, List.append_nil, List.append_assoc]
  congr 2
  · exact hlisting List.mem_cons_self (Ne.symm hfirst) _
  · exact hlisting (List.mem_cons_of_mem _ List.mem_cons_self) (Ne.symm hsecond) _

/-- Functions of different names are units of their own. -/
theorem unitNamed_of_ne (h : NestsTwo definitions root own p₁ p₂ first second below)
    (hfirst : root ≠ first.1) (hsecond : root ≠ second.1) (hne : first.1 ≠ second.1) :
    unitNamed first.1 definitions = first.2 ∧ unitNamed second.1 definitions = second.2 := by
  constructor
  · have hperm := h.filter_perm first.1 (by simp)
    simp only [List.filter_cons, decide_true, if_true, decide_eq_true_eq, if_neg hfirst,
      if_neg (Ne.symm hne), List.filter_nil] at hperm
    exact unitNamed_of_perm_singleton hperm
  · have hperm := h.filter_perm second.1 (by simp)
    simp only [List.filter_cons, decide_true, if_true, decide_eq_true_eq, if_neg hsecond,
      if_neg hne, List.filter_nil] at hperm
    exact unitNamed_of_perm_singleton hperm

/-- Functions of one name are one unit. -/
theorem unitNamed_of_eq (h : NestsTwo definitions root own p₁ p₂ first second below)
    (hfirst : root ≠ first.1) (heq : first.1 = second.1) :
    unitNamed first.1 definitions = first.2 ++ second.2 ∨
      unitNamed first.1 definitions = second.2 ++ first.2 := by
  have hperm := h.filter_perm first.1 (by simp)
  simp only [List.filter_cons, decide_true, if_true, decide_eq_true_eq, if_neg hfirst,
    if_pos heq.symm, List.filter_nil] at hperm
  exact unitNamed_of_perm_pair hperm

/-- The routes of a root that is listed stand among those of other functions. -/
theorem standsAmong_root (h : NestsTwo definitions root own p₁ p₂ first second below)
    (hfirst : root ≠ first.1) (hsecond : root ≠ second.1) :
    StandsAmong (functionRoutes definitions "" root)
      (expandUnits (collectUnits (besides ([root, first.1, second.1] ++ below) definitions)))
      (expandUnits (collectUnits definitions)) := by
  have hmem : root ∈ [root, first.1, second.1] ++ below :=
    List.mem_append_left _ List.mem_cons_self
  have hroot := (h.mem_rootNames_iff hmem).mpr ⟨rfl, hfirst, hsecond⟩
  obtain ⟨before, after, hroots⟩ := List.append_of_mem hroot
  have hnodup := nodup_rootNames_collectUnits definitions
  rw [hroots, List.nodup_middle, List.nodup_cons] at hnodup
  have hothers : ∀ name ∈ before ++ after, name ∉ [root, first.1, second.1] ++ below := by
    intro name hname hgroup
    have hlisted : name ∈ rootNames (collectUnits definitions) := by
      rw [hroots]
      rcases List.mem_append.mp hname with hbefore | hafter
      · exact List.mem_append_left _ hbefore
      · exact List.mem_append_right _ (List.mem_cons_of_mem _ hafter)
    exact hnodup.1 (((h.mem_rootNames_iff hgroup).mp hlisted).1 ▸ hname)
  have hstands := expandUnits_standsAmong h.others h.closed_all before [root] after
    (by rw [hroots, List.append_assoc, List.singleton_append])
    (List.forall_mem_singleton.mpr (not_not.mpr hmem)) hothers
  rwa [List.flatMap_singleton] at hstands

/-- A root of the name of a function that it nests is not listed. -/
theorem standsAmong_nil (h : NestsTwo definitions root own p₁ p₂ first second below)
    (heq : root = first.1 ∨ root = second.1) :
    StandsAmong []
      (expandUnits (collectUnits (besides ([root, first.1, second.1] ++ below) definitions)))
      (expandUnits (collectUnits definitions)) := by
  refine expandUnits_standsAmong h.others h.closed_all (rootNames (collectUnits definitions)) [] []
    (by simp) (List.forall_mem_nil _) ?_
  intro name hname hgroup
  rw [List.append_nil] at hname
  obtain ⟨-, hfirst, hsecond⟩ := (h.mem_rootNames_iff hgroup).mp hname
  rcases heq with heq | heq
  · exact hfirst heq
  · exact hsecond heq

end NestsTwo

/-! ## Files -/

/-- The functions of the names add the routes, which stand together, to what all other functions of
the files have on their own. -/
def Adds (files : List SourceFile) (names : List String) (routes : List HostRoute) : Prop :=
  StandsAmong routes (expandUnits (collectUnits (besides names (fileDefinitions files))))
    (routesOfFiles files)

/-- What the routers of files are listed as, where a root nests two functions. Where the names of the
three differ, the root's own routes are followed by those of the first function under its prefix
and by those of the second under its own. Where the two functions have one name, both prefixes have
the routes of both. Where the root has the name of one of them, there are no routes of these
functions. -/
theorem adds_of_nestsTwo {files : List SourceFile} {root : String} {own : List UnitRoute}
    {p₁ p₂ : String} {first second : String × RouterUnit} {below : List String}
    (hcalls : ∀ c ∈ fileChains files, NestsCalls c.2)
    (h : NestsTwo (fileDefinitions files) root own p₁ p₂ first second below) :
    ([root, first.1, second.1].Nodup →
      Adds files ([root, first.1, second.1] ++ below)
        (own.map (·.under "") ++ listing (among below (fileDefinitions files)) p₁ first.2 ++
          listing (among below (fileDefinitions files)) p₂ second.2)) ∧
    (first.1 = second.1 → root ≠ first.1 →
      ∃ both, (both = first.2 ++ second.2 ∨ both = second.2 ++ first.2) ∧
        (∀ front, (listing (among below (fileDefinitions files)) front both).Perm
          (listing (among below (fileDefinitions files)) front first.2 ++
            listing (among below (fileDefinitions files)) front second.2)) ∧
        Adds files ([root, first.1, second.1] ++ below)
          (own.map (·.under "") ++ listing (among below (fileDefinitions files)) p₁ both ++
            listing (among below (fileDefinitions files)) p₂ both)) ∧
    (root = first.1 ∨ root = second.1 →
      Adds files ([root, first.1, second.1] ++ below) []) := by
  have hroutes : routesOfFiles files = expandUnits (collectUnits (fileDefinitions files)) := by
    rw [routesOfFiles, units_ofFiles hcalls]
  simp only [Adds, hroutes]
  refine ⟨?_, ?_, h.standsAmong_nil⟩
  · intro hnodup
    obtain ⟨⟨hfirst, hsecond⟩, hne⟩ : (root ≠ first.1 ∧ root ≠ second.1) ∧ first.1 ≠ second.1 := by
      simpa using hnodup
    -- with three names each unit is that of one function
    have hstands := h.standsAmong_root hfirst hsecond
    obtain ⟨hunit₁, hunit₂⟩ := h.unitNamed_of_ne hfirst hsecond hne
    rwa [h.functionRoutes_root hfirst hsecond, hunit₁, hunit₂] at hstands
  · intro heq hfirst
    have hsecond : root ≠ second.1 := heq ▸ hfirst
    have hstands := h.standsAmong_root hfirst hsecond
    rw [h.functionRoutes_root hfirst hsecond, ← heq] at hstands
    -- with one name the unit is that of both functions, in the order in which they are met
    have hboth := h.unitNamed_of_eq hfirst heq
    rw [← heq]
    refine ⟨_, hboth, ?_, hstands⟩
    intro front
    rcases hboth with hboth | hboth
    · rw [hboth]
      exact listing_append_perm _ front first.2 second.2
    · rw [hboth]
      exact (listing_append_perm _ front second.2 first.2).trans List.perm_append_comm

/-! ## Two modules with a function of one name -/

/-- A path of names. -/
def pathExpr (names : List String) : Expr :=
  .path .plain [] (names.map fun name => .mk name .none none [])

/-- The call of a path. -/
def callExpr (names : List String) (args : List Expr) : Expr :=
  .call [] (pathExpr names) args

/-- A chain with one more call whose first argument is an address. -/
def addressCall (receiver : Expr) (method address : String) (target : Expr) : Expr :=
  .methodCall [] receiver method [] [.literal [] ⟨.text address, "", []⟩, target]

/-- A file with a function that builds a router. -/
def routerFile (name : String) (chain : Expr) : SourceFile where
  attrs := []
  items := [.function { attrs := [], name } [.function name [.expr chain]]]

/-- Two modules with a function `routes` each, and a root that nests both. -/
def moduleFiles (root : String) : List SourceFile :=
  let new := callExpr ["Router", "new"] []
  let own := addressCall new "route" "/health" (callExpr ["get"] [pathExpr ["health"]])
  let tasks := addressCall own "nest" "/api/tasks" (callExpr ["tasks", "routes"] [])
  let users := addressCall tasks "nest" "/api/users" (callExpr ["users", "routes"] [])
  let list := addressCall new "route" "/list" (callExpr ["get"] [pathExpr ["list_tasks"]])
  let all := addressCall new "route" "/all" (callExpr ["get"] [pathExpr ["list_users"]])
  [routerFile "routes" list, routerFile "routes" all, routerFile root users]

/-- The route of the root itself. -/
def healthRoute : UnitRoute :=
  { path := "/health", method := .get, action := some (.function "health") }

/-- The unit of the function that lists tasks. -/
def taskUnit : RouterUnit :=
  { routes := [{ path := "/list", method := .get, action := some (.function "list_tasks") }] }

/-- The unit of the function that lists users. -/
def userUnit : RouterUnit :=
  { routes := [{ path := "/all", method := .get, action := some (.function "list_users") }] }

/-- The chains of the files nest calls, and the root nests the two functions of one name. -/
theorem nestsTwo_moduleFiles :
    (∀ c ∈ fileChains (moduleFiles "app"), NestsCalls c.2) ∧
      NestsTwo (fileDefinitions (moduleFiles "app")) "app" [healthRoute] "/api/tasks" "/api/users"
        ("routes", taskUnit) ("routes", userUnit) [] := by
  have hdefinitions : fileDefinitions (moduleFiles "app") =
      [("routes", taskUnit), ("routes", userUnit),
        ("app", ⟨[healthRoute], [("/api/tasks", "routes"), ("/api/users", "routes")]⟩)] := by
    decide +kernel
  refine ⟨by decide +kernel, ?_⟩
  rw [hdefinitions]
  exact {
    defined := by decide
    apart := List.forall_mem_nil _
    first_children := List.forall_mem_nil _
    second_children := List.forall_mem_nil _
    closed := fun _ _ hname => absurd hname List.not_mem_nil
    nested := List.forall_mem_nil _
    others := by decide }

/-- The two functions of the files are one, and the root adds its routes twice. -/
theorem adds_moduleFiles :
    ∃ both, (both = taskUnit ++ userUnit ∨ both = userUnit ++ taskUnit) ∧
      (∀ front, (listing [] front both).Perm
        (listing [] front taskUnit ++ listing [] front userUnit)) ∧
      Adds (moduleFiles "app") ["app", "routes", "routes"]
        ([healthRoute].map (·.under "") ++ listing [] "/api/tasks" both ++
          listing [] "/api/users" both) := by
  obtain ⟨hcalls, hnests⟩ := nestsTwo_moduleFiles
  exact (adds_of_nestsTwo hcalls hnests).2.1 rfl (by decide)

/-- The routes of both functions are found under both prefixes, and none is found where the root has
their name as well. -/
theorem routesOfFiles_moduleFiles :
    (routesOfFiles (moduleFiles "app")).map HostRoute.uri =
      ["/health", "/api/tasks/list", "/api/tasks/all", "/api/users/list", "/api/users/all"] ∧
    routesOfFiles (moduleFiles "app") ≠
      [healthRoute].map (·.under "") ++ listing [] "/api/tasks" taskUnit ++
        listing [] "/api/users" userUnit ∧
    routesOfFiles (moduleFiles "routes") = [] := by
  decide +kernel

end AnnotatedApi.Route
