import AnnotatedApi.OpenApi.Reading
import AnnotatedApi.Files.Path

/-! # Configuration

What a project tells the generator: where its sources and models are, which routes are documented,
and the parts of the document that no source declares. Every part has a default, so that nothing at
all is a valid configuration. -/

namespace AnnotatedApi

/-- Which routes are documented. -/
structure RouteSelection where
  /-- Patterns of which an address has to match one; without any, it has to hold the prefix. -/
  includePatterns : List String := []
  excludePatterns : List String := []
  apiPrefix : String := "api"
  /-- Middleware of which a route has to have one, unless the list is empty. -/
  middleware : List String := []

/-- Which models are documented. -/
structure ModelSelection where
  directories : List String := ["src/models"]
  /-- The names of models that are left out, qualified or not. -/
  excluded : List String := []

/-- Where sources, routes and models are found. -/
structure Discovery where
  sourceRoot : String := "src"
  /-- The module path of the source root. -/
  rootNamespace : String := "crate"
  routes : RouteSelection := {}
  models : ModelSelection := {}

/-- Where documents are served and written. -/
structure DocumentPaths where
  jsonRoute : String := "/openapi.json"
  yamlRoute : String := "/openapi.yaml"
  uiRoute : String := "/api-docs"
  outputDirectory : Option String := none
  outputName : String := "openapi"

/-- A configuration. -/
structure Config where
  info : Info := {}
  servers : List Server := []
  discovery : Discovery := {}
  /-- Whether the hidden fields of models are documented. -/
  includesHidden : Bool := false
  securitySchemes : List (String × SecurityScheme) := []
  security : List SecurityRequirement := []
  parameters : List (String × Parameter) := []
  responses : List (String × Response) := []
  tags : List Tag := []
  paths : DocumentPaths := {}
  /-- The directory that relative paths start from. -/
  projectRoot : Option String := none

/-- The addresses that the generator itself serves, without leading slashes. -/
def DocumentPaths.reservedUris (paths : DocumentPaths) : List String :=
  ([paths.jsonRoute, paths.yamlRoute, paths.uiRoute].map Text.trimLeadingSlashes).filter (· != "")

namespace Config

/-- A path of the configuration, from the root of the project. -/
def resolvePath (config : Config) (path : String) : String :=
  match config.projectRoot with
  | some root => if FilePath.isAbsolute path then path else FilePath.join root path
  | none => path

/-- The root of the sources. -/
def sourceRoot (config : Config) : String :=
  config.resolvePath config.discovery.sourceRoot

/-- The directories of models. -/
def modelDirectories (config : Config) : List String :=
  config.discovery.models.directories.map config.resolvePath

end Config

/-! ## Reading -/

open Datum

/-- Read which routes are documented. -/
def RouteSelection.read : Reader RouteSelection :=
  recordOf [["include_patterns"], ["exclude_patterns"], ["api_prefix"],
      ["middleware_filters"]] fun
    | [includePatterns, excludePatterns, apiPrefix, middleware] => do
        return {
          includePatterns := ← orElse [] readTexts includePatterns
          excludePatterns := ← orElse [] readTexts excludePatterns
          apiPrefix := ← orElse "api" readText apiPrefix
          middleware := ← orElse [] readTexts middleware }
    | _ => failure

/-- Read which models are documented. -/
def ModelSelection.read : Reader ModelSelection :=
  recordOf [["directories"], ["exclude_classes"]] fun
    | [directories, excluded] => do
        return {
          directories := ← orElse ["src/models"] readTexts directories
          excluded := ← orElse [] readTexts excluded }
    | _ => failure

/-- Read where sources, routes and models are found. -/
def Discovery.read : Reader Discovery :=
  recordOf [["source_root"], ["root_namespace"], ["routes"], ["models"]] fun
    | [sourceRoot, rootNamespace, routes, models] => do
        return {
          sourceRoot := ← orElse "src" readText sourceRoot
          rootNamespace := ← orElse "crate" readText rootNamespace
          routes := ← orElse {} RouteSelection.read routes
          models := ← orElse {} ModelSelection.read models }
    | _ => failure

/-- Read whether hidden fields are documented. -/
def Config.readIncludesHidden : Reader Bool :=
  recordOf [["include_hidden_fields"]] fun
    | [includesHidden] => orElse false readBool includesHidden
    | _ => failure

/-- Read where documents are served and written. -/
def DocumentPaths.read : Reader DocumentPaths :=
  recordOf [["json_route_path"], ["yaml_route_path"], ["ui_route"], ["output_directory"],
      ["output_filename"]] fun
    | [jsonRoute, yamlRoute, uiRoute, outputDirectory, outputName] => do
        return {
          jsonRoute := ← orElse "/openapi.json" readText jsonRoute
          yamlRoute := ← orElse "/openapi.yaml" readText yamlRoute
          uiRoute := ← orElse "/api-docs" readText uiRoute
          outputDirectory := ← maybe readText outputDirectory
          outputName := ← orElse "openapi" readText outputName }
    | _ => failure

/-- Read security schemes; one that cannot be read is left out. -/
def Config.readSchemes : Reader (List (String × SecurityScheme)) := fun d => do
  return (← membersOf readJson d).filterMap fun (name, value) =>
    ((Datum.ofJson value).read? SecurityScheme.read).map fun scheme => (name, scheme)

/-- Read a configuration. -/
def Config.read : Reader Config :=
  recordOf [["info"], ["servers"], ["discovery"], ["generation"],
      ["security_schemes", "securitySchemes"], ["security"], ["parameters"], ["responses"],
      ["tags"], ["paths"]] fun
    | [info, servers, discovery, generation, securitySchemes, security, parameters, responses, tags,
        paths] => do
        return {
          info := ← orElse {} Info.read info
          servers := ← orElse [] (listOf Server.read) servers
          discovery := ← orElse {} Discovery.read discovery
          includesHidden := ← orElse false readIncludesHidden generation
          securitySchemes := ← orElse [] readSchemes securitySchemes
          security := ← orElse [] (listOf SecurityRequirement.read) security
          parameters := ← orElse [] (membersOf Parameter.read) parameters
          responses := ← orElse [] (membersOf Response.read) responses
          tags := ← orElse [] (listOf Tag.read) tags
          paths := ← orElse {} DocumentPaths.read paths }
    | _ => failure

end AnnotatedApi
