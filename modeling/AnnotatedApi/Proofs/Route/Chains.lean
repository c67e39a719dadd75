import Mathlib.Data.List.Basic
import Mathlib.Logic.Relation
import AnnotatedApi.Proofs.Route.SharedNames

/-! # Chains of nested units

A unit may be nested in several others, in itself or in units that are nested in it, and a nested
name may be that of no unit. Listing the routes of such a graph ends, and what it lists is told by
the chains from the roots: each chain is given by positions, that of the root among all units and
then that of each next unit among those nested in the one before. The listing goes through the
chains in which no name repeats, in the lexicographic order of their positions, and each adds the
routes of its last unit under the prefixes on the way to it. -/

namespace AnnotatedApi.Route

variable {units : List (String × RouterUnit)}

/-! ## Chains -/

/-- Where a chain leads: the name of its last unit, the names of the units around it, the innermost
first, and what the prefixes on the way combine to. -/
structure Place where
  name : String
  outer : List String
  front : String

namespace Place

/-- The place of a root. -/
def root (name : String) : Place :=
  ⟨name, [], ""⟩

/-- The place of a unit that is nested in the one of a place. -/
def nested (p : Place) (child : String × String) : Place :=
  ⟨child.2, p.name :: p.outer, combine p.front child.1⟩

/-- The names of the units of a chain, the last one first. -/
def names (p : Place) : List String :=
  p.name :: p.outer

@[simp] theorem outer_nested (p : Place) (child : String × String) :
    (p.nested child).outer = p.names := rfl

@[simp] theorem names_nested (p : Place) (child : String × String) :
    (p.nested child).names = child.2 :: p.names := rfl

end Place

/-- The positions lead from one place to another through units that exist. -/
inductive Leads (units : List (String × RouterUnit)) : Place → List Nat → Place → Prop
  | here {p : Place} {unit : RouterUnit} : getMember? p.name units = some unit → Leads units p [] p
  | nested {p q : Place} {unit : RouterUnit} {k : Nat} {child : String × String}
      {path : List Nat} :
      getMember? p.name units = some unit → unit.children[k]? = some child →
      Leads units (p.nested child) path q → Leads units p (k :: path) q

/-- A chain from a unit that nothing nests to the unit of a place. -/
inductive IsChain (units : List (String × RouterUnit)) : List Nat → Place → Prop
  | mk {k : Nat} {root : String} {path : List Nat} {p : Place} :
      (memberNames units)[k]? = some root → root ∉ nestedNames units →
      Leads units (.root root) path p → IsChain units (k :: path) p

/-- The routes of the unit of a place, as they are listed there. -/
def routesAt (units : List (String × RouterUnit)) (p : Place) : List HostRoute :=
  ((getMember? p.name units).getD {}).routes.map (·.under p.front)

/-- A unit nests one of the other name. -/
def Nests (units : List (String × RouterUnit)) (outer inner : String) : Prop :=
  ∃ unit, getMember? outer units = some unit ∧ inner ∈ unit.children.map Prod.snd

/-- Nesting leads from a root to the name. -/
def IsReached (units : List (String × RouterUnit)) (name : String) : Prop :=
  ∃ root ∈ rootNames units, Relation.ReflTransGen (Nests units) root name

/-- No unit is nested in itself, directly or through others. -/
def IsAcyclic (units : List (String × RouterUnit)) : Prop :=
  ∀ name, ¬ Relation.TransGen (Nests units) name name

namespace Leads

variable {p q : Place} {path : List Nat}

/-- The unit that a chain starts from exists. -/
theorem exists_unit (h : Leads units p path q) : ∃ unit, getMember? p.name units = some unit := by
  cases h with
  | here hunit => exact ⟨_, hunit⟩
  | nested hunit => exact ⟨_, hunit⟩

/-- A chain keeps the names that it starts with. -/
theorem names_suffix (h : Leads units p path q) : p.names <:+ q.names := by
  induction h with
  | here => exact List.suffix_refl _
  | nested _ _ _ ih => exact (List.suffix_cons _ _).trans ih

/-- A chain is continued by a unit that exists. -/
theorem concat (h : Leads units p path q) {unit other : RouterUnit} {k : Nat}
    {child : String × String} (hunit : getMember? q.name units = some unit)
    (hchild : unit.children[k]? = some child) (hother : getMember? child.2 units = some other) :
    Leads units p (path ++ [k]) (q.nested child) := by
  induction h with
  | here => exact .nested hunit hchild (.here (p := Place.nested _ child) hother)
  | nested hfirst hnext _ ih => exact .nested hfirst hnext (ih hunit)

/-- A chain goes through each of its units that were not around it from the start. -/
theorem exists_of_mem (h : Leads units p path q) {name : String} (hname : name ∈ q.names) :
    name ∈ p.outer ∨
      ∃ path' q', Leads units p path' q' ∧ q'.name = name ∧ q'.names <:+ q.names := by
  induction h with
  | @here p unit hunit =>
      rcases List.mem_cons.mp hname with rfl | houter
      · exact .inr ⟨[], p, .here hunit, rfl, List.suffix_refl _⟩
      · exact .inl houter
  | @nested p q unit k child path hunit hchild hrest ih =>
      rcases ih hname with houter | ⟨path', q', hleads, heq, hsuffix⟩
      · rcases List.mem_cons.mp houter with rfl | houter
        · exact .inr ⟨[], p, .here hunit, rfl, (Leads.nested hunit hchild hrest).names_suffix⟩
        · exact .inl houter
      · exact .inr ⟨k :: path', q', .nested hunit hchild hleads, heq, hsuffix⟩

/-- Where a chain leads is reached by nesting. -/
theorem reflTransGen (h : Leads units p path q) :
    Relation.ReflTransGen (Nests units) p.name q.name := by
  induction h with
  | here => exact .refl
  | nested hunit hchild _ ih =>
      exact .head ⟨_, hunit, List.mem_map_of_mem (List.mem_of_getElem? hchild)⟩ ih

/-- Without cycles no name repeats in a chain, if none does at its start. -/
theorem nodup_of_isAcyclic (hacyclic : IsAcyclic units) (h : Leads units p path q)
    (hnodup : p.names.Nodup)
    (houter : ∀ name ∈ p.outer, Relation.TransGen (Nests units) name p.name) : q.names.Nodup := by
  induction h with
  | here => exact hnodup
  | @nested p q unit k child path hunit hchild _ ih =>
      have hnests : Nests units p.name child.2 :=
        ⟨unit, hunit, List.mem_map_of_mem (List.mem_of_getElem? hchild)⟩
      have hinner : ∀ name ∈ p.names, Relation.TransGen (Nests units) name child.2 :=
        List.forall_mem_cons.mpr ⟨.single hnests, fun name hname => (houter name hname).tail hnests⟩
      refine ih ?_ hinner
      exact List.nodup_cons.mpr ⟨fun hmem => hacyclic _ (hinner _ hmem), hnodup⟩

end Leads

/-- What nesting reaches from a unit, a chain reaches in which no name repeats. -/
theorem exists_leads_of_reflTransGen {root name : String}
    (h : Relation.ReflTransGen (Nests units) root name) {unit : RouterUnit}
    (hunit : getMember? name units = some unit) :
    ∃ path q, Leads units (.root root) path q ∧ q.name = name ∧ q.names.Nodup := by
  induction h generalizing unit with
  | refl => exact ⟨[], .root root, .here hunit, rfl, List.nodup_singleton _⟩
  | @tail middle name _ hnests ih =>
      obtain ⟨outer, houter, hinner⟩ := hnests
      obtain ⟨path, q, hleads, rfl, hnodup⟩ := ih houter
      by_cases hmem : name ∈ q.names
      · -- the chain to the unit around it goes through the name already, and is cut there
        rcases hleads.exists_of_mem hmem with hnone | ⟨path', q', hleads', heq, hsuffix⟩
        · exact absurd hnone List.not_mem_nil
        · exact ⟨path', q', hleads', heq, hnodup.sublist hsuffix.sublist⟩
      · obtain ⟨child, hchild, rfl⟩ := List.mem_map.mp hinner
        obtain ⟨k, hk⟩ := List.getElem?_of_mem hchild
        exact ⟨path ++ [k], q.nested child, hleads.concat houter hk hunit, rfl,
          List.nodup_cons.mpr ⟨hmem, hnodup⟩⟩

/-! ## Branches -/

/-- What branches off at the elements of a list, with the position of the element in front. -/
def branches (chainsOf : α → List (List Nat × Place)) (list : List α) : List (List Nat × Place) :=
  list.zipIdx.flatMap fun (a, k) => (chainsOf a).map fun c => (k :: c.1, c.2)

section Branches

variable {chainsOf : α → List (List Nat × Place)} {list : List α}

theorem mem_branches_iff {path : List Nat} {p : Place} :
    (path, p) ∈ branches chainsOf list ↔
      ∃ k a rest, path = k :: rest ∧ list[k]? = some a ∧ (rest, p) ∈ chainsOf a := by
  simp only [branches, List.mem_flatMap, List.mem_map, Prod.exists, Prod.mk.injEq,
    List.mk_mem_zipIdx_iff_getElem?]
  constructor
  · rintro ⟨a, k, ha, rest, p, hmem, rfl, rfl⟩
    exact ⟨k, a, rest, rfl, ha, hmem⟩
  · rintro ⟨k, a, rest, rfl, ha, hmem⟩
    exact ⟨a, k, ha, rest, p, hmem, rfl, rfl⟩

/-- Branches are in order if each of them is. -/
theorem pairwise_branches (h : ∀ a ∈ list, (chainsOf a).Pairwise fun c d => c.1 < d.1) :
    (branches chainsOf list).Pairwise fun c d => c.1 < d.1 := by
  have hpositions : list.zipIdx.Pairwise fun a b => a.2 < b.2 := by
    rw [← List.pairwise_map (f := Prod.snd), List.zipIdx_map_snd]
    exact List.pairwise_lt_range' 1
  rw [branches, List.pairwise_flatMap]
  constructor
  · rintro ⟨a, k⟩ hmem
    rw [List.pairwise_map]
    have ha := List.mem_of_getElem? (List.mk_mem_zipIdx_iff_getElem?.mp hmem)
    exact (h a ha).imp fun hlt => List.cons_lt_cons_iff.mpr (.inr ⟨rfl, hlt⟩)
  · refine hpositions.imp fun hlt c hc d hd => ?_
    obtain ⟨c, -, rfl⟩ := List.mem_map.mp hc
    obtain ⟨d, -, rfl⟩ := List.mem_map.mp hd
    exact List.cons_lt_cons_iff.mpr (.inl hlt)

/-- What the places of branches give is what those of each give, in order. -/
theorem flatMap_branches (f : Place → List β) :
    (branches chainsOf list).flatMap (fun c => f c.2) =
      list.flatMap fun a => (chainsOf a).flatMap fun c => f c.2 := by
  conv_rhs => rw [← List.zipIdx_map_fst 0 list, List.flatMap_map]
  rw [branches, List.flatMap_assoc]
  simp only [List.flatMap_map]

end Branches

/-! ## The chains in order -/

/-- The chains from a place in which no name repeats, in the order of their positions. -/
def chainsFrom (units : List (String × RouterUnit)) : Nat → Place → List (List Nat × Place)
  | 0, _ => []
  | fuel + 1, p =>
      if p.name ∈ p.outer then []
      else
        match getMember? p.name units with
        | none => []
        | some unit =>
            ([], p) :: branches (fun child => chainsFrom units fuel (p.nested child)) unit.children

/-- The chains from the roots in which no name repeats, in the order of their positions. -/
def chainsOf (units : List (String × RouterUnit)) : List (List Nat × Place) :=
  branches
    (fun name =>
      if name ∈ nestedNames units then []
      else chainsFrom units (units.length + 1) (.root name))
    (memberNames units)

/-- The chains from the place of a unit that is not around it. -/
theorem chainsFrom_of_getMember? {fuel : Nat} {p : Place} {unit : RouterUnit}
    (hnew : p.name ∉ p.outer) (hget : getMember? p.name units = some unit) :
    chainsFrom units (fuel + 1) p =
      ([], p) :: branches (fun child => chainsFrom units fuel (p.nested child)) unit.children := by
  rw [chainsFrom, if_neg hnew, hget]

/-- A place where the chains end: the unit is around it already, or there is no such unit. -/
theorem chainsFrom_eq_nil {fuel : Nat} {p : Place}
    (h : p.name ∈ p.outer ∨ getMember? p.name units = none) : chainsFrom units fuel p = [] := by
  cases fuel with
  | zero => rfl
  | succ fuel =>
      rw [chainsFrom]
      split
      · rfl
      · next hnew => rw [h.resolve_left hnew]

/-- A listing ends where the chains do. -/
theorem expandUnit_eq_nil {fuel : Nat} {outer : List String} {front name : String}
    (h : name ∈ outer ∨ getMember? name units = none) :
    expandUnit units fuel outer front name = [] := by
  cases fuel with
  | zero => rfl
  | succ fuel =>
      rw [expandUnit]
      split
      · rfl
      · next hnew =>
        have hget := h.resolve_left (by simpa using hnew)
        rw [hget]

/-- The listing of a unit has the routes at the places of the chains. -/
theorem expandUnit_eq_flatMap (fuel : Nat) (p : Place) :
    expandUnit units fuel p.outer p.front p.name =
      (chainsFrom units fuel p).flatMap fun c => routesAt units c.2 := by
  induction fuel generalizing p with
  | zero => rfl
  | succ fuel ih =>
      by_cases hend : p.name ∈ p.outer ∨ getMember? p.name units = none
      · rw [chainsFrom_eq_nil hend, expandUnit_eq_nil hend]
        rfl
      obtain ⟨hnew, hsome⟩ := not_or.mp hend
      obtain ⟨unit, hget⟩ := Option.ne_none_iff_exists'.mp hsome
      rw [expandUnit_of_getMember? hnew hget, chainsFrom_of_getMember? hnew hget,
        List.flatMap_cons, flatMap_branches, routesAt, hget, Option.getD_some]
      congr 1
      exact List.flatMap_congr fun child _ => ih (p.nested child)

/-- The chains from a place are in order, and no two are the same. -/
theorem pairwise_chainsFrom (fuel : Nat) (p : Place) :
    (chainsFrom units fuel p).Pairwise fun c d => c.1 < d.1 := by
  induction fuel generalizing p with
  | zero => exact .nil
  | succ fuel ih =>
      rw [chainsFrom]
      split
      · exact .nil
      split
      · exact .nil
      · next unit _ =>
        refine List.pairwise_cons.mpr ⟨?_, pairwise_branches fun child _ => ih _⟩
        rintro ⟨path, q⟩ hmem
        obtain ⟨k, child, rest, rfl, -, -⟩ := mem_branches_iff.mp hmem
        exact List.nil_lt_cons _ _

/-- The chains from a place are those that lead somewhere without repeating a name. -/
theorem mem_chainsFrom_iff {fuel : Nat} {p : Place} (hroom : Room units fuel p.outer)
    {path : List Nat} {q : Place} :
    (path, q) ∈ chainsFrom units fuel p ↔ Leads units p path q ∧ q.names.Nodup := by
  induction fuel generalizing p path with
  | zero => exact absurd hroom.fuel_pos (Nat.lt_irrefl 0)
  | succ fuel ih =>
      by_cases hend : p.name ∈ p.outer ∨ getMember? p.name units = none
      · rw [chainsFrom_eq_nil hend]
        refine iff_of_false List.not_mem_nil ?_
        rintro ⟨hleads, hnodup⟩
        rcases hend with hmem | hnone
        · -- a chain keeps its start, where a name repeats
          have hstart : p.names.Nodup := hnodup.sublist hleads.names_suffix.sublist
          exact (List.nodup_cons.mp hstart).1 hmem
        · obtain ⟨unit, hunit⟩ := hleads.exists_unit
          rw [hnone] at hunit
          exact Option.some_ne_none _ hunit.symm
      obtain ⟨hnew, hsome⟩ := not_or.mp hend
      obtain ⟨unit, hget⟩ := Option.ne_none_iff_exists'.mp hsome
      have hinner : Room units fuel p.names :=
        hroom.cons hnew (mem_memberNames_of_mem (mem_of_getMember? hget))
      rw [chainsFrom_of_getMember? hnew hget, List.mem_cons, mem_branches_iff]
      constructor
      · rintro (heq | ⟨k, child, rest, rfl, hchild, hmem⟩)
        · obtain ⟨rfl, rfl⟩ := Prod.mk.inj heq
          exact ⟨.here hget, List.nodup_cons.mpr ⟨hnew, hroom.nodup⟩⟩
        · obtain ⟨hleads, hnodup⟩ := (ih (p := p.nested child) hinner).mp hmem
          exact ⟨.nested hget hchild hleads, hnodup⟩
      · rintro ⟨hleads, hnodup⟩
        cases hleads with
        | here => exact .inl rfl
        | @nested _ _ unit' k child rest hget' hchild hrest =>
            rw [hget, Option.some.injEq] at hget'
            subst hget'
            exact .inr ⟨k, child, rest, rfl, hchild,
              (ih (p := p.nested child) hinner).mpr ⟨hrest, hnodup⟩⟩

/-- The chains of the roots are those in which no name repeats. -/
theorem mem_chainsOf_iff {path : List Nat} {p : Place} :
    (path, p) ∈ chainsOf units ↔ IsChain units path p ∧ p.names.Nodup := by
  rw [chainsOf, mem_branches_iff]
  constructor
  · rintro ⟨k, root, rest, rfl, hroot, hmem⟩
    split at hmem
    · exact absurd hmem List.not_mem_nil
    · next hfree =>
      obtain ⟨hleads, hnodup⟩ := (mem_chainsFrom_iff (p := .root root) (Room.root units)).mp hmem
      exact ⟨.mk hroot hfree hleads, hnodup⟩
  · rintro ⟨⟨hroot, hfree, hleads⟩, hnodup⟩
    refine ⟨_, _, _, rfl, hroot, ?_⟩
    rw [if_neg hfree]
    exact (mem_chainsFrom_iff (p := .root _) (Room.root units)).mpr ⟨hleads, hnodup⟩

/-- The chains of the roots are in order, and no two are the same. -/
theorem pairwise_chainsOf (units : List (String × RouterUnit)) :
    (chainsOf units).Pairwise fun c d => c.1 < d.1 := by
  refine pairwise_branches fun root _ => ?_
  split
  · exact .nil
  · exact pairwise_chainsFrom _ _

/-- The listing of all roots has the routes at the places of the chains. -/
theorem expandUnits_eq_flatMap (units : List (String × RouterUnit)) :
    expandUnits units = (chainsOf units).flatMap fun c => routesAt units c.2 := by
  rw [chainsOf, flatMap_branches, expandUnits, rootNames]
  generalize memberNames units = names
  induction names with
  | nil => rfl
  | cons name names ih =>
      rw [List.flatMap_cons, ← ih]
      by_cases hnested : name ∈ nestedNames units
      · rw [List.filter_cons_of_neg (by simpa using hnested), if_pos hnested]
        rfl
      · rw [List.filter_cons_of_pos (by simpa using hnested), List.flatMap_cons, if_neg hnested,
          ← expandUnit_eq_flatMap]
        rfl

/-! ## The end of the listing -/

mutual

/-- The unit of a name is listed under a prefix with the routes: the recursion goes through the
units nested in it, and ends. -/
inductive Lists (units : List (String × RouterUnit)) :
    List String → String → String → List HostRoute → Prop
  | again {outer : List String} {front name : String} :
      name ∈ outer → Lists units outer front name []
  | unknown {outer : List String} {front name : String} :
      name ∉ outer → getMember? name units = none → Lists units outer front name []
  | unit {outer : List String} {front name : String} {unit : RouterUnit}
      {below : List HostRoute} :
      name ∉ outer → getMember? name units = some unit →
      ListsAll units (name :: outer) front unit.children below →
      Lists units outer front name (unit.routes.map (·.under front) ++ below)

/-- The nested units are listed with the routes, one after the other. -/
inductive ListsAll (units : List (String × RouterUnit)) :
    List String → String → List (String × String) → List HostRoute → Prop
  | nil {outer : List String} {front : String} : ListsAll units outer front [] []
  | cons {outer : List String} {front : String} {child : String × String}
      {rest : List (String × String)} {first more : List HostRoute} :
      Lists units outer (combine front child.1) child.2 first →
      ListsAll units outer front rest more →
      ListsAll units outer front (child :: rest) (first ++ more)

end

/-- Listing a unit ends where there is room, with what the fuel gives. -/
theorem lists_expandUnit {fuel : Nat} {outer : List String} (hroom : Room units fuel outer)
    (front name : String) :
    Lists units outer front name (expandUnit units fuel outer front name) := by
  induction fuel generalizing outer front name with
  | zero => exact absurd hroom.fuel_pos (Nat.lt_irrefl 0)
  | succ fuel ih =>
      by_cases hmem : name ∈ outer
      · rw [expandUnit_eq_nil (.inl hmem)]
        exact .again hmem
      cases hget : getMember? name units with
      | none =>
          rw [expandUnit_eq_nil (.inr hget)]
          exact .unknown hmem hget
      | some unit =>
          rw [expandUnit_of_getMember? hmem hget]
          have hinner := hroom.cons hmem (mem_memberNames_of_mem (mem_of_getMember? hget))
          refine .unit hmem hget ?_
          induction unit.children with
          | nil => exact .nil
          | cons child rest ihrest => exact .cons (ih hinner _ _) ihrest

/-! ## Units that are not reached -/

/-- With other routes a unit has the units nested in it all the same. -/
theorem nestedNames_putMember {name : String} {unit : RouterUnit}
    (hget : getMember? name units = some unit) (own : List UnitRoute) :
    nestedNames (putMember name { unit with routes := own } units) = nestedNames units := by
  induction units with
  | nil => exact absurd hget (Option.some_ne_none _).symm
  | cons entry units ih =>
      obtain ⟨key, old⟩ := entry
      by_cases h : key = name
      · rw [getMember?, if_pos h, Option.some.injEq] at hget
        rw [putMember, if_pos h, hget]
        rfl
      · rw [getMember?, if_neg h] at hget
        rw [putMember, if_neg h, nestedNames, List.flatMap_cons, ← nestedNames, ih hget]
        rfl

/-- The routes of a unit that no root reaches make no difference. -/
theorem expandUnits_putMember {name : String} {unit : RouterUnit}
    (hget : getMember? name units = some unit) (hfar : ¬ IsReached units name)
    (own : List UnitRoute) :
    expandUnits (putMember name { unit with routes := own } units) = expandUnits units := by
  have hmem : name ∈ memberNames units := mem_memberNames_of_mem (mem_of_getMember? hget)
  have hroots : rootNames (putMember name { unit with routes := own } units) = rootNames units := by
    rw [rootNames, rootNames, nestedNames_putMember hget, memberNames_putMember, if_pos hmem]
  rw [expandUnits, expandUnits, hroots]
  refine List.flatMap_congr fun root hroot => ?_
  symm
  -- a listing goes through units that its root reaches, and these are the same
  refine expandUnit_congr (p := IsReached units) ?_ ?_ (Room.root _) (Room.root _)
    (fun _ _ => Iff.rfl) ⟨root, hroot, .refl⟩ ""
  · rintro other unit ⟨root, hroot, hreach⟩ hother child hchild
    exact ⟨root, hroot, hreach.tail ⟨unit, hother, List.mem_map_of_mem hchild⟩⟩
  · intro other hother
    refine (getMember?_putMember_of_ne ?_ _ _).symm
    rintro rfl
    exact hfar hother

/-! ## Listing depth first -/

/-- The routes are those at the places of the chains that satisfy `p`, each once and in the order of
the positions. -/
def ListedAlong (units : List (String × RouterUnit)) (p : List Nat → Place → Prop)
    (routes : List HostRoute) : Prop :=
  ∃ chains : List (List Nat × Place), chains.Pairwise (fun c d => c.1 < d.1) ∧
    (∀ path place, (path, place) ∈ chains ↔ p path place) ∧
    routes = chains.flatMap fun c => routesAt units c.2

/-- What it means that routes list a graph of units depth first. -/
structure DepthFirst (units : List (String × RouterUnit)) (routes : List HostRoute) : Prop where
  /-- Listing the roots one after the other ends with the routes. -/
  ends : ∃ lists, List.Forall₂ (Lists units [] "") (rootNames units) lists ∧ routes = lists.flatten
  /-- The routes follow the chains from roots in which no name repeats. -/
  listed : ListedAlong units (fun path p => IsChain units path p ∧ p.names.Nodup) routes
  /-- All routes of a unit that a root reaches are there, at some chain to it. -/
  reached : ∀ name unit, IsReached units name → getMember? name units = some unit →
    ∃ path p, IsChain units path p ∧ p.name = name ∧
      ∀ route ∈ unit.routes, route.under p.front ∈ routes
  /-- Chains lead to units that a root reaches only. -/
  near : ∀ path p, IsChain units path p → IsReached units p.name
  /-- The routes of a unit that no root reaches make no difference. -/
  far : ∀ name unit own, getMember? name units = some unit → ¬ IsReached units name →
    expandUnits (putMember name { unit with routes := own } units) = routes
  /-- Without cycles the routes follow all chains from roots. -/
  acyclic : IsAcyclic units → ListedAlong units (IsChain units) routes

/-- A root is a unit at some position that nothing nests. -/
theorem mem_rootNames_iff {name : String} :
    name ∈ rootNames units ↔
      (∃ k : Nat, (memberNames units)[k]? = some name) ∧ name ∉ nestedNames units := by
  rw [rootNames, List.mem_filter, List.mem_iff_getElem?]
  simp

/-- Units are listed depth first, whatever nests what. -/
theorem depthFirst_expandUnits (units : List (String × RouterUnit)) :
    DepthFirst units (expandUnits units) where
  ends := by
    refine ⟨(rootNames units).map (expandUnit units (units.length + 1) [] ""), ?_, ?_⟩
    · rw [List.forall₂_map_right_iff, List.forall₂_same]
      exact fun root _ => lists_expandUnit (Room.root units) "" root
    · rw [expandUnits, List.flatMap_def]
  listed := ⟨chainsOf units, pairwise_chainsOf units, fun _ _ => mem_chainsOf_iff,
    expandUnits_eq_flatMap units⟩
  reached := by
    rintro name unit ⟨root, hroot, hreach⟩ hunit
    obtain ⟨path, p, hleads, rfl, hnodup⟩ := exists_leads_of_reflTransGen hreach hunit
    obtain ⟨⟨k, hk⟩, hfree⟩ := mem_rootNames_iff.mp hroot
    -- a chain to the unit that repeats no name is one of those that are listed
    have hchain : IsChain units (k :: path) p := .mk hk hfree hleads
    refine ⟨k :: path, p, hchain, rfl, fun route hroute => ?_⟩
    rw [expandUnits_eq_flatMap, List.mem_flatMap]
    refine ⟨(k :: path, p), mem_chainsOf_iff.mpr ⟨hchain, hnodup⟩, ?_⟩
    rw [routesAt, hunit, Option.getD_some]
    exact List.mem_map_of_mem hroute
  near := by
    rintro _ p ⟨hroot, hfree, hleads⟩
    exact ⟨_, mem_rootNames_iff.mpr ⟨⟨_, hroot⟩, hfree⟩, hleads.reflTransGen⟩
  far := fun _ _ own hget hfar => expandUnits_putMember hget hfar own
  acyclic := by
    intro hacyclic
    refine ⟨chainsOf units, pairwise_chainsOf units, fun path p => ?_,
      expandUnits_eq_flatMap units⟩
    rw [mem_chainsOf_iff]
    refine and_iff_left_of_imp ?_
    rintro ⟨-, -, hleads⟩
    exact hleads.nodup_of_isAcyclic hacyclic (List.nodup_singleton _) (List.forall_mem_nil _)

/-- A unit that is nested twice is listed twice, and its own nesting in itself is not followed. -/
example :
    let list : UnitRoute := { path := "/list", method := .get, action := none }
    (expandUnits [("tasks", ⟨[list], [("/sub", "tasks"), ("/none", "none")]⟩),
      ("app", ⟨[], [("/a", "tasks"), ("/b", "tasks")]⟩)]).map HostRoute.uri =
        ["/a/list", "/b/list"] := by
  decide +kernel

end AnnotatedApi.Route
