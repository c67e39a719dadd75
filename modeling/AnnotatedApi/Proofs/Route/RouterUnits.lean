import Mathlib.Data.List.Permutation
import AnnotatedApi.Proofs.Members
import AnnotatedApi.Route.Router

/-! # Units of router chains

Reading a source file runs over its chains and changes units as it goes. Where the routers that
chains nest are calls of functions, each chain can be read on its own: it defines a unit of a name,
and the units of the files are these definitions collected in order, those of one name added up.
Nothing but the name says what belongs together. -/

namespace AnnotatedApi.Route

open Source

/-! ## Adding units up -/

namespace RouterUnit

/-- The routes and the nested units of one unit, then those of another. -/
instance : Append RouterUnit where
  append u v := { routes := u.routes ++ v.routes, children := u.children ++ v.children }

@[simp] theorem routes_append (u v : RouterUnit) : (u ++ v).routes = u.routes ++ v.routes := rfl

@[simp] theorem children_append (u v : RouterUnit) :
    (u ++ v).children = u.children ++ v.children := rfl

/-- Units are told by their routes and by what is nested in them. -/
theorem eq_of_parts {u v : RouterUnit} (hroutes : u.routes = v.routes)
    (hchildren : u.children = v.children) : u = v := by
  cases u
  cases v
  rw [mk.injEq]
  exact ⟨hroutes, hchildren⟩

@[simp] theorem append_empty (u : RouterUnit) : u ++ ({} : RouterUnit) = u :=
  eq_of_parts (List.append_nil _) (List.append_nil _)

@[simp] theorem empty_append (u : RouterUnit) : ({} : RouterUnit) ++ u = u :=
  eq_of_parts (List.nil_append _) (List.nil_append _)

end RouterUnit

/-- The units after a definition was read: what it has is added to the unit of its name. -/
def addDefinition (units : List (String × RouterUnit)) (definition : String × RouterUnit) :
    List (String × RouterUnit) :=
  putMember definition.1 ((getMember? definition.1 units).getD {} ++ definition.2) units

/-- The units that definitions add up to. -/
def collectUnits (definitions : List (String × RouterUnit)) : List (String × RouterUnit) :=
  definitions.foldl addDefinition []

/-- What all definitions of a name have, in order. -/
def unitNamed (name : String) (definitions : List (String × RouterUnit)) : RouterUnit :=
  ((definitions.filter fun definition => definition.1 = name).map Prod.snd).foldl (· ++ ·) {}

variable {definitions : List (String × RouterUnit)} {name : String}

@[simp] theorem collectUnits_concat (definitions : List (String × RouterUnit))
    (definition : String × RouterUnit) :
    collectUnits (definitions ++ [definition]) =
      addDefinition (collectUnits definitions) definition := by
  rw [collectUnits, List.foldl_append]
  rfl

theorem unitNamed_concat_self (definitions : List (String × RouterUnit)) (name : String)
    (unit : RouterUnit) :
    unitNamed name (definitions ++ [(name, unit)]) = unitNamed name definitions ++ unit := by
  simp [unitNamed]

theorem unitNamed_concat_of_ne {other : String} (h : other ≠ name) (unit : RouterUnit) :
    unitNamed name (definitions ++ [(other, unit)]) = unitNamed name definitions := by
  simp [unitNamed, h]

/-- A name with a single definition has what it has. -/
theorem unitNamed_of_perm_singleton {definition : String × RouterUnit}
    (h : (definitions.filter fun definition => definition.1 = name).Perm [definition]) :
    unitNamed name definitions = definition.2 := by
  rw [unitNamed, List.perm_singleton.mp h]
  exact RouterUnit.empty_append _

/-- A name with two definitions has what both have. -/
theorem unitNamed_of_perm_pair {first second : String × RouterUnit}
    (h : (definitions.filter fun definition => definition.1 = name).Perm [first, second]) :
    unitNamed name definitions = first.2 ++ second.2 ∨
      unitNamed name definitions = second.2 ++ first.2 := by
  have happend (u v : RouterUnit) : {} ++ u ++ v = u ++ v := by
    rw [RouterUnit.empty_append]
  rw [unitNamed]
  rcases List.perm_pair.mp h with hpair | hpair
  · left
    rw [hpair]
    exact happend _ _
  · right
    rw [hpair]
    exact happend _ _

/-- The units have the names of the definitions, each at its first place. -/
theorem memberNames_collectUnits (definitions : List (String × RouterUnit)) :
    memberNames (collectUnits definitions) = (memberNames definitions).eraseDups :=
  memberNames_foldl_putMember Prod.fst
    (fun units definition => (getMember? definition.1 units).getD ({} : RouterUnit) ++ definition.2)
    definitions

/-- The unit of a name is what all definitions of the name have. -/
theorem getMember?_collectUnits (name : String) (definitions : List (String × RouterUnit)) :
    getMember? name (collectUnits definitions) =
      if name ∈ memberNames definitions then some (unitNamed name definitions) else none := by
  induction definitions using List.reverseRecOn with
  | nil => rfl
  | append_singleton definitions definition ih =>
      obtain ⟨other, unit⟩ := definition
      rw [collectUnits_concat, addDefinition, getMember?_putMember, memberNames_append]
      by_cases h : name = other
      · -- the definition goes behind those of its name, or is the first of them
        subst h
        have hmem : name ∈ memberNames definitions ++ memberNames [(name, unit)] :=
          List.mem_append_right _ List.mem_cons_self
        rw [if_pos rfl, if_pos hmem, unitNamed_concat_self, ih]
        split
        · rfl
        · next hname =>
          have hnone : unitNamed name definitions = {} := by
            rw [unitNamed, List.filter_eq_nil_iff.mpr]
            · rfl
            · intro entry hentry heq
              exact hname (of_decide_eq_true heq ▸ mem_memberNames_of_mem hentry)
          rw [hnone]
          rfl
      · rw [if_neg h, ih, unitNamed_concat_of_ne (Ne.symm h)]
        simp [h]

/-- What is nested in a unit is nested by a definition of its name. -/
theorem mem_children_unitNamed_iff {child : String × String} :
    child ∈ (unitNamed name definitions).children ↔
      ∃ definition ∈ definitions, definition.1 = name ∧ child ∈ definition.2.children := by
  induction definitions using List.reverseRecOn with
  | nil => simp [unitNamed]
  | append_singleton definitions definition ih =>
      obtain ⟨other, unit⟩ := definition
      simp only [List.mem_append, List.mem_singleton, or_and_right, exists_or, exists_eq_left]
      by_cases h : other = name
      · subst h
        rw [unitNamed_concat_self, RouterUnit.children_append, List.mem_append, ih]
        simp
      · rw [unitNamed_concat_of_ne h, ih]
        simp [h]

/-- The units nest the names that the definitions nest. -/
theorem mem_nestedNames_collectUnits_iff :
    name ∈ nestedNames (collectUnits definitions) ↔ name ∈ nestedNames definitions := by
  have hnodup : (memberNames (collectUnits definitions)).Nodup := by
    rw [memberNames_collectUnits]
    exact nodup_eraseDups _
  simp only [nestedNames, List.mem_flatMap, List.mem_map]
  constructor
  · rintro ⟨⟨owner, unit⟩, hentry, child, hchild, heq⟩
    have hget := (getMember?_eq_some_iff hnodup).mpr hentry
    rw [getMember?_collectUnits] at hget
    split at hget
    · rw [Option.some.injEq] at hget
      rw [← hget] at hchild
      obtain ⟨definition, hdefinition, -, hmem⟩ := mem_children_unitNamed_iff.mp hchild
      exact ⟨definition, hdefinition, child, hmem, heq⟩
    · exact absurd hget (Option.some_ne_none _).symm
  · rintro ⟨definition, hdefinition, child, hchild, heq⟩
    have hget := getMember?_collectUnits definition.1 definitions
    rw [if_pos (mem_memberNames_of_mem hdefinition)] at hget
    have hmem := mem_children_unitNamed_iff.mpr ⟨definition, hdefinition, rfl, hchild⟩
    exact ⟨_, mem_of_getMember? hget, child, hmem, heq⟩

/-! ## Reading a chain -/

/-- The routes that a call of a chain adds. -/
def callRoutes (method : String) (args : List Expr) : List UnitRoute :=
  match method, args with
  | "route", .literal _ l :: target :: _ =>
      match l.asText? with
      | some path =>
          (methodEntries target).map fun (method, action) =>
            { path := normalize path, method, action }
      | none => []
  | _, _ => []

/-- The routers that a call of a chain nests, with their prefixes. -/
def callLinks (method : String) (args : List Expr) : List (String × Expr) :=
  match method, args with
  | "nest", .literal _ l :: target :: _ =>
      match l.asText? with
      | some path => [(normalize path, target)]
      | none => []
  | "merge", target :: _ => [("", target)]
  | _, _ => []

/-- The name of the function that an expression calls. -/
def calledName? : Expr → Option String
  | .call _ (.path _ _ segments) _ => segments.getLast?.map PathSegment.name
  | _ => none

/-- What a call of a chain adds to its unit. -/
def callUnit (method : String) (args : List Expr) : RouterUnit where
  routes := callRoutes method args
  children := (callLinks method args).filterMap fun l => (calledName? l.2).map (l.1, ·)

/-- What a chain adds to its unit. -/
def chainUnit : Expr → RouterUnit
  | .methodCall _ receiver method _ args => chainUnit receiver ++ callUnit method args
  | _ => {}

/-- All routers that a chain nests are calls of functions. -/
def NestsCalls : Expr → Prop
  | .methodCall _ receiver method _ args =>
      NestsCalls receiver ∧ ∀ l ∈ callLinks method args, (calledName? l.2).isSome
  | _ => True

instance NestsCalls.decidable : (e : Expr) → Decidable (NestsCalls e)
  | .methodCall _ receiver method _ args =>
      have := decidable receiver
      inferInstanceAs
        (Decidable (NestsCalls receiver ∧ ∀ l ∈ callLinks method args, (calledName? l.2).isSome))
  | .literal _ _ => isTrue trivial
  | .path _ _ _ => isTrue trivial
  | .call _ _ _ => isTrue trivial
  | .operation _ _ _ => isTrue trivial
  | .compound _ _ => isTrue trivial

/-- Changing a unit twice. -/
theorem Routers.modify_modify (name : String) (f g : RouterUnit → RouterUnit) (routers : Routers) :
    (routers.modify name f).modify name g = routers.modify name fun u => g (f u) := by
  simp only [modify, getMember?_putMember_self, putMember_putMember, Option.getD_some]

/-- A call of a chain adds its routes, and then nests its routers. -/
theorem chain_methodCall (function unit method : String) (attrs parts : List Part)
    (receiver : Expr) (args : List Expr) (routers : Routers) :
    chain function unit (.methodCall attrs receiver method parts args) routers =
      (callLinks method args).foldl
        (fun routers l =>
          link function unit l.1 l.2 (fun name routers => chain function name l.2 routers) routers)
        ((callRoutes method args).foldl (fun routers route => routers.addRoute unit route)
          (chain function unit receiver routers)) := by
  rw [chain.eq_def]
  dsimp only
  split
  · split
    · next path hpath =>
      simp [callRoutes, callLinks, hpath, addCallRoutes, List.foldl_map]
    · next hpath => simp [callRoutes, callLinks, hpath]
  · split
    · next path hpath => simp [callRoutes, callLinks, hpath]
    · next hpath => simp [callRoutes, callLinks, hpath]
  · simp [callRoutes, callLinks]
  · next hroute hnest hmerge =>
    -- a call of any other method adds nothing
    have hroutes : callRoutes method args = [] := by
      rw [callRoutes]
      exact hroute
    have hlinks : callLinks method args = [] := by
      rw [callLinks]
      · exact hnest
      · exact hmerge
    rw [hroutes, hlinks]
    rfl

/-- Adding routes to a unit. -/
theorem foldl_addRoute (unit : String) (routes : List UnitRoute) (f : RouterUnit → RouterUnit)
    (routers : Routers) :
    routes.foldl (fun routers route => routers.addRoute unit route) (routers.modify unit f) =
      routers.modify unit fun u => f u ++ { routes } := by
  induction routes generalizing f with
  | nil =>
      simp only [List.foldl_nil, RouterUnit.append_empty]
  | cons route routes ih =>
      rw [List.foldl_cons, Routers.addRoute, Routers.modify_modify, ih]
      congr 1
      funext u
      exact RouterUnit.eq_of_parts (List.append_assoc _ _ _) rfl

/-- Nesting a router that is the call of a function. -/
theorem link_eq_addChild {target : Expr} (h : calledName? target = some name)
    (function unit path : String) (chain : String → Routers → Routers) (routers : Routers) :
    link function unit path target chain routers = routers.addChild unit path name := by
  rw [calledName?.eq_def] at h
  split at h
  · next segments args =>
    obtain ⟨segment, hsegment, rfl⟩ := Option.map_eq_some_iff.mp h
    rw [link.eq_def]
    simp only [hsegment]
  · exact absurd h (Option.some_ne_none _).symm

/-- Nesting several routers that are calls of functions. -/
theorem foldl_link {links : List (String × Expr)}
    (h : ∀ l ∈ links, (calledName? l.2).isSome) (function unit : String)
    (f : RouterUnit → RouterUnit) (routers : Routers) :
    links.foldl
        (fun routers l =>
          link function unit l.1 l.2 (fun name routers => chain function name l.2 routers) routers)
        (routers.modify unit f) =
      routers.modify unit fun u =>
        f u ++ { children := links.filterMap fun l => (calledName? l.2).map (l.1, ·) } := by
  induction links generalizing f with
  | nil => simp only [List.foldl_nil, List.filterMap_nil, RouterUnit.append_empty]
  | cons first links ih =>
      obtain ⟨path, target⟩ := first
      rw [List.forall_mem_cons] at h
      obtain ⟨name, hname⟩ := Option.isSome_iff_exists.mp h.1
      rw [List.foldl_cons, link_eq_addChild hname, Routers.addChild, Routers.modify_modify, ih h.2]
      congr 1
      funext u
      refine RouterUnit.eq_of_parts rfl ?_
      simp [hname]

/-- Reading a chain whose nested routers are calls adds to its unit what can be read off the chain,
and does nothing else. -/
theorem chain_modify (function unit : String) (e : Expr) (h : NestsCalls e)
    (f : RouterUnit → RouterUnit) (routers : Routers) :
    chain function unit e (routers.modify unit f) =
      routers.modify unit fun u => f u ++ chainUnit e := by
  fun_induction chainUnit e generalizing f with
  | case1 attrs receiver method parts args ih =>
      rw [chain_methodCall, ih h.1, foldl_addRoute, foldl_link h.2]
      congr 1
      funext u
      refine RouterUnit.eq_of_parts ?_ ?_
      · simp [callUnit]
      · simp [callUnit]
  | case2 e hcall =>
      rw [chain]
      · simp only [RouterUnit.append_empty]
      · exact hcall

/-! ## Reading bodies -/

mutual

/-- The chains in an expression, each with the unit that it belongs to, in the order of reading. -/
def exprChains (function unit : String) : Expr → List (String × Expr)
  | .literal attrs _ => partsChains function unit attrs
  | .path _ parts segments =>
      partsChains function unit parts ++ segmentsChains function unit segments
  | .call attrs callee args =>
      partsChains function unit attrs ++ exprChains function unit callee ++
        exprsChains function unit args
  | .methodCall attrs receiver method parts args =>
      if buildsRouter method then [(unit, .methodCall attrs receiver method parts args)]
      else
        partsChains function unit attrs ++ exprChains function unit receiver ++
          partsChains function unit parts ++ exprsChains function unit args
  | .operation _ left parts => exprChains function unit left ++ partsChains function unit parts
  | .compound _ parts => partsChains function unit parts

/-- The chains in expressions. -/
def exprsChains (function unit : String) : List Expr → List (String × Expr)
  | [] => []
  | e :: rest => exprChains function unit e ++ exprsChains function unit rest

/-- The chains in the generic arguments of a path. -/
def segmentsChains (function unit : String) : List PathSegment → List (String × Expr)
  | [] => []
  | .mk _ _ _ parts :: rest =>
      partsChains function unit parts ++ segmentsChains function unit rest

/-- The chains in a part. -/
def partChains (function unit : String) : Part → List (String × Expr)
  | .expr value => exprChains function unit value
  | .binding name value => exprChains function (localName function name) value
  | .function name parts => partsChains name name parts

/-- The chains in parts. -/
def partsChains (function unit : String) : List Part → List (String × Expr)
  | [] => []
  | part :: rest => partChains function unit part ++ partsChains function unit rest

end

/-- What a chain defines: a unit of the name that it belongs to. -/
def chainDefinition (c : String × Expr) : String × RouterUnit :=
  (c.1, chainUnit c.2)

/-- The definitions of chains, all of whose nested routers are calls, added to units. -/
def Defines (chains : List (String × Expr)) (before after : Routers) : Prop :=
  (∀ c ∈ chains, NestsCalls c.2) →
    after.units = (chains.map chainDefinition).foldl addDefinition before.units

namespace Defines

variable {first second : List (String × Expr)} {before between after : Routers}

theorem nil (routers : Routers) : Defines [] routers routers :=
  fun _ => rfl

/-- Chains are read one after the other. -/
theorem append (h : Defines first before between) (h' : Defines second between after) :
    Defines (first ++ second) before after := by
  intro hcalls
  rw [List.forall_mem_append] at hcalls
  rw [List.map_append, List.foldl_append, ← h hcalls.1]
  exact h' hcalls.2

/-- A chain is read into its unit, which is there from then on. -/
theorem chain (function unit : String) (e : Expr) (routers : Routers) :
    Defines [(unit, e)] routers (chain function unit e (routers.touch unit)) := by
  intro hcalls
  rw [List.forall_mem_singleton] at hcalls
  rw [Routers.touch, chain_modify function unit e hcalls]
  rfl

/-- Noting a binding leaves the units alone. -/
theorem noteLocal (h : Defines first before after) (name : String) (routers : Routers) :
    Defines first before (noteLocal name routers after) := by
  intro hcalls
  rw [← h hcalls, Route.noteLocal]
  split
  · rfl
  · rfl

end Defines

mutual

theorem defines_collectExpr (function unit : String) :
    ∀ (e : Expr) (routers : Routers),
      Defines (exprChains function unit e) routers (collectExpr function unit e routers)
  | .literal attrs value, routers => by
      rw [exprChains, collectExpr]
      exact defines_collectParts function unit attrs routers
  | .path start parts segments, routers => by
      rw [exprChains, collectExpr]
      exact (defines_collectParts function unit parts routers).append
        (defines_collectSegments function unit segments _)
  | .call attrs callee args, routers => by
      rw [exprChains, collectExpr]
      exact ((defines_collectParts function unit attrs routers).append
        (defines_collectExpr function unit callee _)).append
        (defines_collectExprs function unit args _)
  | .methodCall attrs receiver method parts args, routers => by
      rw [exprChains, collectExpr]
      split
      · exact Defines.chain function unit _ routers
      · exact (((defines_collectParts function unit attrs routers).append
          (defines_collectExpr function unit receiver _)).append
          (defines_collectParts function unit parts _)).append
          (defines_collectExprs function unit args _)
  | .operation isComparison left parts, routers => by
      rw [exprChains, collectExpr]
      exact (defines_collectExpr function unit left routers).append
        (defines_collectParts function unit parts _)
  | .compound shape parts, routers => by
      rw [exprChains, collectExpr]
      exact defines_collectParts function unit parts routers

theorem defines_collectExprs (function unit : String) :
    ∀ (exprs : List Expr) (routers : Routers),
      Defines (exprsChains function unit exprs) routers (collectExprs function unit exprs routers)
  | [], routers => Defines.nil routers
  | e :: rest, routers => by
      rw [exprsChains, collectExprs]
      exact (defines_collectExpr function unit e routers).append
        (defines_collectExprs function unit rest _)

theorem defines_collectSegments (function unit : String) :
    ∀ (segments : List PathSegment) (routers : Routers),
      Defines (segmentsChains function unit segments) routers
        (collectSegments function unit segments routers)
  | [], routers => Defines.nil routers
  | .mk name args firstType parts :: rest, routers => by
      rw [segmentsChains, collectSegments]
      exact (defines_collectParts function unit parts routers).append
        (defines_collectSegments function unit rest _)

theorem defines_collectPart (function unit : String) :
    ∀ (part : Part) (routers : Routers),
      Defines (partChains function unit part) routers (collectPart function unit part routers)
  | .expr value, routers => by
      rw [partChains, collectPart]
      exact defines_collectExpr function unit value routers
  | .binding name value, routers => by
      rw [partChains, collectPart]
      exact (defines_collectExpr function _ value routers).noteLocal _ routers
  | .function name parts, routers => by
      rw [partChains, collectPart]
      exact defines_collectParts name name parts routers

theorem defines_collectParts (function unit : String) :
    ∀ (parts : List Part) (routers : Routers),
      Defines (partsChains function unit parts) routers (collectParts function unit parts routers)
  | [], routers => Defines.nil routers
  | part :: rest, routers => by
      rw [partsChains, collectParts]
      exact (defines_collectPart function unit part routers).append
        (defines_collectParts function unit rest _)

end

/-- The chains in source files. -/
def fileChains (files : List SourceFile) : List (String × Expr) :=
  files.flatMap fun file => partsChains "" "" file.parts

/-- What the chains in source files define. -/
def fileDefinitions (files : List SourceFile) : List (String × RouterUnit) :=
  (fileChains files).map chainDefinition

/-- The units of source files whose chains nest calls only are what the chains define. -/
theorem units_ofFiles {files : List SourceFile} (h : ∀ c ∈ fileChains files, NestsCalls c.2) :
    (Routers.ofFiles files).units = collectUnits (fileDefinitions files) := by
  have hdefines (routers : Routers) : Defines (fileChains files) routers
      (files.foldl (fun routers file => collectParts "" "" file.parts routers) routers) := by
    clear h
    induction files generalizing routers with
    | nil => exact Defines.nil routers
    | cons file files ih =>
        exact (defines_collectParts "" "" file.parts routers).append (ih _)
  exact hdefines {} h

end AnnotatedApi.Route
