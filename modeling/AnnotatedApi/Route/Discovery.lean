import AnnotatedApi.Annotation.Extraction
import AnnotatedApi.Config.Basic
import AnnotatedApi.Operation.Verb
import AnnotatedApi.Route.Address
import AnnotatedApi.Route.Glob
import AnnotatedApi.Source.Index

/-! # Documented routes

A route of the host is documented when it has a handler with a name and passes the filters of the
configuration. It then becomes one endpoint for each of its methods, with the annotations of its
handler. -/

namespace AnnotatedApi.Route

open Source

/-! ## Endpoints -/

/-- The type and the method that a route dispatches to. -/
structure Handler where
  /-- The qualified name, if the index knows the type. -/
  typeName : String
  method : String
  deriving DecidableEq, Repr

/-- A documented route for one method. -/
structure Endpoint where
  method : HttpMethod
  uri : String
  /-- The names of the parameters in the address. -/
  parameters : List String
  /-- The patterns that parameters must match. -/
  wheres : List (String × String) := []
  middleware : List String := []
  handler : Option Handler := none
  name : Option String := none
  methodAnnotations : Annotations := []
  typeAnnotations : Annotations := []

namespace Endpoint

/-- The address with a single slash in front. -/
def path (e : Endpoint) : String :=
  pathOf e.uri

/-- Whether the handler or its type is hidden. -/
def isHidden (e : Endpoint) : Bool :=
  e.methodAnnotations.isHidden || e.typeAnnotations.isHidden

end Endpoint

/-! ## Handlers -/

/-- A handler whose names may have blanks around them. -/
def trimmedHandler (typeName method : String) : Handler :=
  ⟨Text.trim typeName, Text.trim method⟩

/-- A handler, if both names are there. -/
def handlerOf? (typeName method : String) : Option Handler :=
  if typeName == "" || method == "" then none else some (trimmedHandler typeName method)

/-- The handler of a reference: a type and a method with `@` between them, or a type alone. -/
def handlerOfReference? (text : String) : Option Handler :=
  let typeName := text.toList.takeWhile (· ≠ '@')
  match text.toList.dropWhile (· ≠ '@') with
  | _ :: method => handlerOf? (String.ofList typeName) (String.ofList method)
  | [] => if Text.isBlankText text then none else some (trimmedHandler text invokeMethod)

/-- The handler of an action as it is written; a function is looked for in the index. -/
def writtenHandler? (index : Index) : HandlerAction → Option Handler
  | .reference text => handlerOfReference? text
  | .pair owner method => handlerOf? owner method
  | .function name =>
      (index.findFunction? name).map fun (owner, f) => trimmedHandler owner.qualifiedName f.name

/-! ## Filters -/

/-- What the types of the generator itself start with. -/
def reservedNamespace : String := "openapi_from_annotations::"

/-- The endings of files that are no endpoints; a question mark follows an optional letter. -/
def assetEndings : List String :=
  ["js", "css", "map", "png", "jpg", "jpeg", "gif", "svg", "ico", "webp", "bmp", "woff", "woff2",
   "ttf", "eot", "otf", "pdf", "doc", "docx", "xls", "xlsx", "ppt", "pptx", "txt", "csv", "xml",
   "zip", "gz", "tar", "mp3", "mp4", "webm"]

/-- A character as endings are compared: without case, and with the two letters that only differ in
case from an ASCII one. -/
def foldEndingChar (c : Char) : Char :=
  if c.toNat = 0x17F then 's'
  else if c.toNat = 0x212A then 'k'
  else c.toLower

/-- Whether an address is that of a file. -/
def isAsset (uri : String) : Bool :=
  let folded := uri.toList.map foldEndingChar
  assetEndings.any fun ending => (Text.stripBack? ('.' :: ending.toList) folded).isSome

/-- Whether an address has the prefix as one of its segments. -/
def hasSegment (apiPrefix uri : String) : Bool :=
  let segment := String.ofList
    (Text.dropEndWhile (· = '/') (apiPrefix.toList.dropWhile (· = '/')))
  segment != "" && (Text.splitChar '/' uri).contains segment

/-- Whether the selection includes an address. -/
def isIncluded (selection : RouteSelection) (uri : String) : Bool :=
  let included := selection.includePatterns.filterMap globToRegex?
  if included.isEmpty then hasSegment selection.apiPrefix uri
  else included.any (Regex.isMatch · uri)

/-- Whether a route has one of the middleware that is asked for. -/
def hasMiddleware (selection : RouteSelection) (middleware : List String) : Bool :=
  selection.middleware.isEmpty || middleware.any (selection.middleware.contains ·)

/-- Whether a route is documented. -/
def isDocumented (config : Config) (route : HostRoute) (handler : Handler) : Bool :=
  let uri := Text.trimLeadingSlashes route.uri
  let selection := config.discovery.routes
  !(Text.startsWith handler.typeName reservedNamespace ||
      config.paths.reservedUris.contains uri) &&
    !(selection.excludePatterns.filterMap globToRegex?).any (Regex.isMatch · uri) &&
    !isAsset uri &&
    isIncluded selection uri &&
    hasMiddleware selection route.middleware

/-! ## Discovery -/

/-- The methods of a route that are documented: `head` goes along with `get`. -/
def documentedMethods (methods : List HttpMethod) : List HttpMethod :=
  methods.filter fun method => !(method == .head && methods.contains .get)

/-- A handler with the qualified name of its type, if the index knows the type. -/
def Handler.qualified (written : Handler) (owner : Option TypeEntry) : Handler :=
  { written with typeName := (owner.map TypeEntry.qualifiedName).getD written.typeName }

/-- The annotations of a type; there are none where the index does not know the type. -/
def annotationsOfOwner (owner : Option TypeEntry) : Annotations :=
  (owner.map fun o => Annotations.ofAttributes o.attrs).getD []

/-- The endpoints of a route, given its handler, the type of the handler and the annotations of that
type. -/
def endpointsFor (route : HostRoute) (handler : Handler) (owner : Option TypeEntry)
    (typeAnnotations : Annotations) : List Endpoint :=
  let methodAnnotations :=
    ((owner.bind fun o => o.findMethod? handler.method).map fun m =>
      Annotations.ofAttributes m.attrs).getD []
  (documentedMethods route.methods).map fun method =>
    { method
      uri := route.uri
      parameters := route.parameters.getD (placeholderNames route.uri)
      wheres := route.wheres
      middleware := route.middleware
      handler := some handler
      name := route.name
      methodAnnotations
      typeAnnotations }

/-- The endpoints of a route with the handler as it is written. -/
def endpointsWith (index : Index) (route : HostRoute) (written : Handler) : List Endpoint :=
  let owner := index.find? written.typeName
  endpointsFor route (written.qualified owner) owner (annotationsOfOwner owner)

/-- The endpoints of a route. -/
def endpointsOf (config : Config) (index : Index) (route : HostRoute) : List Endpoint :=
  match route.action.bind (writtenHandler? index) with
  | some handler =>
      if isDocumented config route handler then endpointsWith index route handler else []
  | none => []

/-- The endpoints of a host, in the order of its routes. -/
def endpoints (config : Config) (index : Index) (routes : List HostRoute) : List Endpoint :=
  routes.flatMap (endpointsOf config index)

/-! ## Discovery with a memory

Many routes share the type of their handlers. A run reads the annotations of a type once and
remembers them under the type's name, for whatever route asks for them next. -/

/-- The annotations of types that were read before, by the names of the types. -/
abbrev Remembered : Type := List (String × Annotations)

/-- The annotations of a handler's type: those remembered under its name, or else those of the type
itself, which are then remembered. -/
def recallAnnotations (handler : Handler) (owner : Option TypeEntry) :
    StateM Remembered Annotations := do
  match getMember? handler.typeName (← get) with
  | some annotations => return annotations
  | none =>
      modify (putMember handler.typeName (annotationsOfOwner owner))
      return annotationsOfOwner owner

/-- Discover the endpoints of a route. -/
def discoverRoute (config : Config) (index : Index) (route : HostRoute) :
    StateM Remembered (List Endpoint) := do
  match route.action.bind (writtenHandler? index) with
  | some written =>
      if isDocumented config route written then
        let owner := index.find? written.typeName
        let handler := written.qualified owner
        return endpointsFor route handler owner (← recallAnnotations handler owner)
      else return []
  | none => return []

/-- Discover the endpoints of a host, in the order of its routes. -/
def discover (config : Config) (index : Index) (routes : List HostRoute) : List Endpoint :=
  ((routes.mapM (discoverRoute config index)).run []).run.1.flatten

end AnnotatedApi.Route
