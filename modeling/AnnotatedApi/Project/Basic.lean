import AnnotatedApi.Model.Discovery
import AnnotatedApi.OpenApi.Generation
import AnnotatedApi.Route.Router
import AnnotatedApi.Source.Directory

/-! # Documents of projects

The document of a project is generated from what its source files declare: the handlers of its
routes below the source root, and the models below the directories of models. -/

namespace AnnotatedApi

open Source

variable [Monad m]

/-- Read the source files below the source root of a project. -/
def readSources (files : FileAccess m) (config : Config) : m Sources :=
  readDirectory files config.sourceRoot config.discovery.rootNamespace

/-- The namespace of a directory of a project. -/
def Config.namespaceOf (config : Config) (directory : String) : String :=
  namespaceFor config.sourceRoot directory config.discovery.rootNamespace

/-- Find the endpoints among the routes of a project. -/
def discoverEndpoints (files : FileAccess m) (config : Config) (routes : List HostRoute) :
    m (List Route.Endpoint) := do
  let sources ← readSources files config
  return Route.discover config (.ofFiles sources.files) routes

/-- Find the models of a project. -/
def discoverModels (files : FileAccess m) (config : Config) : m (List Model) := do
  let sources ← config.modelDirectories.mapM fun directory =>
    readDirectory files directory (config.namespaceOf directory)
  return modelsOf config (.ofFiles (sources.flatMap Sources.files))

/-- Find the routes that the routers of a project declare. -/
def discoverRoutes (files : FileAccess m) (config : Config) : m (List HostRoute) := do
  let sources ← readSources files config
  return Route.routesOfFiles (sources.files.map ModuleFile.file)

/-- Generate the document of a project with the given routes. -/
def generateDocument (files : FileAccess m) (config : Config) (routes : List HostRoute) :
    m Document := do
  let endpoints ← discoverEndpoints files config routes
  let models ← discoverModels files config
  return Document.generate config endpoints models

end AnnotatedApi
