import AnnotatedApi.Route.Basic
import AnnotatedApi.Datum.Reader

/-! # Route manifests

A manifest lists the routes of a host, alone or under the name `routes`. Its scalars are settled
before anything is read, so an address that looks like a number is an error. -/

namespace AnnotatedApi.Route

open Datum

/-- Why a manifest yields no routes. -/
inductive ManifestError where
  | unreadable
  /-- The route at the address has no method. -/
  | noMethod (uri : String)
  deriving DecidableEq, Repr

/-- The message of an error, where it has a fixed wording. -/
def ManifestError.message? : ManifestError → Option String
  | unreadable => none
  | noMethod uri => some ("route " ++ uri ++ " declares no method")

/-- An entry of a manifest. -/
structure ManifestEntry where
  method : Option HttpMethod := none
  methods : List HttpMethod := []
  uri : String
  action : Option HandlerAction := none
  name : Option String := none
  middleware : List String := []
  wheres : List (String × String) := []
  parameters : Option (List String) := none

/-- Read a method. -/
def readMethod : Reader HttpMethod := fun d => do
  found (HttpMethod.read? (← readText d))

/-- Read what a route dispatches to: a text, or a pair of texts. -/
def readAction : Reader HandlerAction
  | .text words => return .reference words
  | .list true [.text owner, .text method] => return .pair owner method
  | _ => failure

/-- Read an entry. -/
def ManifestEntry.read : Reader ManifestEntry :=
  recordOf [["method"], ["methods"], ["uri", "path"], ["action"], ["name"],
      ["middleware"], ["where", "wheres"], ["parameters"]] fun
    | [method, methods, uri, action, name, middleware, wheres, parameters] => do
        return {
          method := ← maybe readMethod method
          methods := ← orElse [] (listOf readMethod) methods
          uri := ← need readText uri
          action := ← maybe readAction action
          name := ← maybe readText name
          middleware := ← orElse [] readTexts middleware
          wheres := ← orElse [] (membersOf readText) wheres
          parameters := ← maybe readTexts parameters }
    | _ => failure

/-- Read entries under the name `routes`. -/
def readWrapped : Reader (List ManifestEntry) :=
  recordOf [["routes"]] fun
    | [routes] => need (listOf ManifestEntry.read) routes
    | _ => failure

/-- Read the entries of a manifest from a settled datum. -/
def readEntries : Reader (List ManifestEntry) := fun d =>
  match d with
  | .record _ => readWrapped d
  | _ => listOf ManifestEntry.read d

/-- The methods of an entry, the single one first. -/
def ManifestEntry.allMethods (entry : ManifestEntry) : List HttpMethod :=
  entry.method.toList ++ entry.methods

/-- The route of an entry, which has to have a method. -/
def ManifestEntry.route (entry : ManifestEntry) : Except ManifestError HostRoute :=
  if entry.allMethods.isEmpty then .error (.noMethod entry.uri)
  else
    .ok {
      methods := entry.allMethods
      uri := entry.uri
      action := entry.action
      name := entry.name
      middleware := entry.middleware
      wheres := entry.wheres
      parameters := entry.parameters }

/-- The routes of a manifest. -/
def routesOfManifest (file : DataFile) : Except ManifestError (List HostRoute) :=
  match file.read? (settled readEntries) with
  | some entries => entries.mapM ManifestEntry.route
  | none => .error .unreadable

end AnnotatedApi.Route
