import AnnotatedApi.Route.Basic
import AnnotatedApi.Route.Address
import AnnotatedApi.Source.Syntax

/-! # Routes of router chains

Hosts build routers by chains of calls such as `Router::new().route(..).nest(..)`. Every function
or binding that does so is a unit, with routes of its own and other units nested under a prefix. The
units that nothing nests are the roots, from which the routes are listed. -/

namespace AnnotatedApi.Route

open Source

/-! ## Units -/

/-- A route of a unit, relative to the unit's prefix. -/
structure UnitRoute where
  path : String
  method : HttpMethod
  action : Option HandlerAction
  deriving DecidableEq, Repr

/-- A unit: its routes, and the names of the units nested in it with their prefixes. -/
structure RouterUnit where
  routes : List UnitRoute := []
  children : List (String × String) := []
  deriving DecidableEq, Repr

/-- The units found so far, in the order in which they were found, the bindings that hold units, and
the number of units without a name. -/
structure Routers where
  units : List (String × RouterUnit) := []
  locals : List String := []
  anonymous : Nat := 0

namespace Routers

/-- Change a unit, which comes into being if it is not there. -/
def modify (name : String) (change : RouterUnit → RouterUnit) (routers : Routers) : Routers :=
  { routers with
    units := putMember name (change ((getMember? name routers.units).getD {})) routers.units }

/-- Add a unit unless it is there. -/
def touch (name : String) (routers : Routers) : Routers :=
  routers.modify name id

/-- Add a route to a unit. -/
def addRoute (unit : String) (route : UnitRoute) (routers : Routers) : Routers :=
  routers.modify unit fun u => { u with routes := u.routes ++ [route] }

/-- Nest a unit in another. -/
def addChild (unit path child : String) (routers : Routers) : Routers :=
  routers.modify unit fun u => { u with children := u.children ++ [(path, child)] }

end Routers

/-! ## Handlers -/

/-- What an expression in the place of a handler dispatches to. -/
def handlerAction? : Expr → Option HandlerAction
  | .path _ _ segments =>
      match segments.map PathSegment.name with
      | [] => none
      | [function] => some (.function function)
      | first :: second :: rest =>
          let names := first :: second :: rest
          some (.pair (Text.joinPath names.dropLast) (names.getLast?.getD ""))
  | _ => none

/-- The method and handler of a call such as `get(list)`, if the name is that of a method. -/
def methodEntry (name : String) (args : List Expr) : List (HttpMethod × Option HandlerAction) :=
  match HttpMethod.read? name with
  | some method => [(method, args.head?.bind handlerAction?)]
  | none => []

/-- The methods and handlers of a chain such as `get(list).post(store)`, in order. -/
def methodEntries : Expr → List (HttpMethod × Option HandlerAction)
  | .methodCall _ receiver method _ args => methodEntries receiver ++ methodEntry method args
  | .call _ (.path _ _ segments) args =>
      match segments.getLast? with
      | some segment => methodEntry segment.name args
      | none => []
  | _ => []

/-! ## Chains -/

/-- The name of a binding within a function. -/
def localName (function name : String) : String :=
  Text.joinPath [function, name]

/-- Nest what an expression stands for: the unit of a function that is called, of a binding or of a
function that is named, or one of its own for a chain in place, which `chain` reads. -/
def link (function unit path : String) (target : Expr)
    (chain : String → Routers → Routers) (routers : Routers) : Routers :=
  match target with
  | .call _ (.path _ _ segments) _ =>
      match segments.getLast? with
      | some segment => routers.addChild unit path segment.name
      | none => routers
  | .path .plain _ [segment] =>
      if segment.hasArgs then routers
      else
        let binding := localName function segment.name
        if routers.locals.contains binding then routers.addChild unit path binding
        else routers.addChild unit path segment.name
  | .methodCall _ _ _ _ _ =>
      let name := localName function ("#" ++ toString (routers.anonymous + 1))
      let routers := { routers with anonymous := routers.anonymous + 1 }
      (chain name (routers.touch name)).addChild unit path name
  | _ => routers

/-- Add the routes of the last call of a chain. -/
def addCallRoutes (unit path : String) (entries : List (HttpMethod × Option HandlerAction))
    (routers : Routers) : Routers :=
  entries.foldl
    (fun routers (method, action) =>
      routers.addRoute unit { path := normalize path, method, action }) routers

/-- Read the calls of a chain into a unit, in the order in which they are made. -/
def chain (function unit : String) : Expr → Routers → Routers
  | .methodCall _ receiver method _ args, routers =>
      let routers := chain function unit receiver routers
      match method, args with
      | "route", .literal _ l :: target :: _ =>
          match l.asText? with
          | some path => addCallRoutes unit path (methodEntries target) routers
          | none => routers
      | "nest", .literal _ l :: target :: _ =>
          match l.asText? with
          | some path =>
              link function unit (normalize path) target
                (fun name routers => chain function name target routers) routers
          | none => routers
      | "merge", target :: _ =>
          link function unit "" target
            (fun name routers => chain function name target routers) routers
      | _, _ => routers
  | _, routers => routers

/-! ## Bodies -/

/-- Whether a call with the method builds a router. -/
def buildsRouter (method : String) : Bool :=
  ["route", "nest", "merge"].contains method

/-- Note that a binding holds a unit, if its value added one. -/
def noteLocal (name : String) (before after : Routers) : Routers :=
  if after.units.length > before.units.length || hasMember name after.units then
    { after with locals := name :: after.locals }
  else after

mutual

/-- Collect the units of an expression within a function; its chains belong to the given unit. -/
def collectExpr (function unit : String) : Expr → Routers → Routers
  | .literal attrs _, routers => collectParts function unit attrs routers
  | .path _ parts segments, routers =>
      collectSegments function unit segments (collectParts function unit parts routers)
  | .call attrs callee args, routers =>
      collectExprs function unit args
        (collectExpr function unit callee (collectParts function unit attrs routers))
  | .methodCall attrs receiver method parts args, routers =>
      if buildsRouter method then
        chain function unit (.methodCall attrs receiver method parts args) (routers.touch unit)
      else
        let routers := collectExpr function unit receiver
          (collectParts function unit attrs routers)
        collectExprs function unit args (collectParts function unit parts routers)
  | .operation _ left parts, routers =>
      collectParts function unit parts (collectExpr function unit left routers)
  | .compound _ parts, routers => collectParts function unit parts routers

/-- Collect the units of expressions, one after the other. -/
def collectExprs (function unit : String) : List Expr → Routers → Routers
  | [], routers => routers
  | e :: rest, routers =>
      collectExprs function unit rest (collectExpr function unit e routers)

/-- Collect the units in the generic arguments of a path. -/
def collectSegments (function unit : String) : List PathSegment → Routers → Routers
  | [], routers => routers
  | .mk _ _ _ parts :: rest, routers =>
      collectSegments function unit rest (collectParts function unit parts routers)

/-- Collect the units of a part. The chains of a binding belong to a unit of its own, and so do
those of a function. -/
def collectPart (function unit : String) : Part → Routers → Routers
  | .expr value, routers => collectExpr function unit value routers
  | .binding name value, routers =>
      let binding := localName function name
      noteLocal binding routers (collectExpr function binding value routers)
  | .function name parts, routers => collectParts name name parts routers

/-- Collect the units of parts, one after the other. -/
def collectParts (function unit : String) : List Part → Routers → Routers
  | [], routers => routers
  | part :: rest, routers =>
      collectParts function unit rest (collectPart function unit part routers)

end

/-- The units of source files. -/
def Routers.ofFiles (files : List SourceFile) : Routers :=
  files.foldl (fun routers file => collectParts "" "" file.parts routers) {}

/-! ## Listing routes -/

/-- List the routes of a unit under a prefix, then those of the units nested in it. `outer` holds
the units around it; a unit that nests itself is not listed again. -/
def expandUnit (units : List (String × RouterUnit)) :
    Nat → List String → String → String → List HostRoute
  | 0, _, _, _ => []
  | fuel + 1, outer, front, name =>
      if outer.contains name then []
      else
        match getMember? name units with
        | none => []
        | some unit =>
            (unit.routes.map fun route =>
              { methods := [route.method], uri := combine front route.path,
                action := route.action }) ++
            unit.children.flatMap fun (path, child) =>
              expandUnit units fuel (name :: outer) (combine front path) child

/-- The names of the units that are nested somewhere. -/
def nestedNames (units : List (String × RouterUnit)) : List String :=
  units.flatMap fun entry => entry.2.children.map Prod.snd

/-- The names of the units that nothing nests. -/
def rootNames (units : List (String × RouterUnit)) : List String :=
  (memberNames units).filter fun name => !(nestedNames units).contains name

/-- List the routes of all roots. A chain of nested units never repeats one, so its length is
bounded by their number. -/
def expandUnits (units : List (String × RouterUnit)) : List HostRoute :=
  (rootNames units).flatMap (expandUnit units (units.length + 1) [] "")

/-- The routes of the routers in source files. -/
def routesOfFiles (files : List SourceFile) : List HostRoute :=
  expandUnits (Routers.ofFiles files).units

end AnnotatedApi.Route
