import AnnotatedApi.CommandLine.Arguments
import AnnotatedApi.Project.Artifact
import AnnotatedApi.Project.Basic
import AnnotatedApi.Project.Settings

/-! # Running commands

A run yields what it prints. The routes of a project are those of a manifest: the one that is given,
or one in the project's directory. Without a manifest, they are those that routers in its source
files declare. -/

namespace AnnotatedApi.CommandLine

/-- Why a command fails. -/
inductive RunError where
  | missingProject (path : String)
  | projectIsNoDirectory (path : String)
  | configuration (path : String) (cause : Failure)
  | manifest (path : String) (cause : Failure)
  | output (path : String) (cause : Failure)
  | artifact (path : String) (cause : Failure)
  deriving DecidableEq, Repr

/-- The message of an error. -/
def RunError.message : RunError → String
  | missingProject path => "Project path does not exist: " ++ path
  | projectIsNoDirectory path => "Project path is not a directory: " ++ path
  | configuration path _ => "Failed to load configuration " ++ path
  | manifest path _ => "Failed to load route manifest " ++ path
  | output path _ => "Failed to write " ++ path
  | artifact path _ => "Cannot show " ++ path

/-- The failure below an error. -/
def RunError.cause? : RunError → Option Failure
  | missingProject _ => none
  | projectIsNoDirectory _ => none
  | configuration _ cause => some cause
  | manifest _ cause => some cause
  | output _ cause => some cause
  | artifact _ cause => some cause

/-- The names of manifests in the directory of a project, the preferred one first. -/
def manifestNames : List String := ["routes.yaml", "routes.yml", "routes.json"]

/-- Where a document is written; nowhere means that it is printed. An output path without an ending
gets that of the format. -/
def outputPath? (config : Config) (options : GenerateOptions) : Option String :=
  match options.output with
  | some path =>
      if (FilePath.extension? path).isNone then
        some (FilePath.addExtension path options.format.name)
      else some path
  | none =>
      config.paths.outputDirectory.map fun directory =>
        FilePath.join (config.resolvePath directory)
          (config.paths.outputName ++ "." ++ options.format.name)

variable [Monad m]

/-- The outcome of a step whose failure has a context. -/
def inContext (context : Failure → RunError) (step : ExceptT Failure m α) : ExceptT RunError m α :=
  ExceptT.mk (return (← step.run).mapError context)

/-- Check that the directory of a project exists. -/
def checkProject (files : FileAccess m) (path : String) : ExceptT RunError m Unit := do
  if !(← files.isPresent path) then throw (.missingProject path)
  else if !(← files.isDirectory path) then throw (.projectIsNoDirectory path)

/-- The configuration of a project. -/
def configOf (files : FileAccess m) (options : GenerateOptions) : ExceptT RunError m Config := do
  let config ←
    match options.config with
    | some path => inContext (.configuration path) (readConfig files path)
    | none => pure {}
  return { config with projectRoot := some options.project }

/-- The first of some paths that leads to a file. -/
def firstFile? (files : FileAccess m) : List String → m (Option String)
  | [] => return none
  | path :: rest => do
      if ← files.isFile path then return some path
      else firstFile? files rest

/-- The manifest of a project. -/
def manifest? (files : FileAccess m) (options : GenerateOptions) : m (Option String) :=
  match options.routes with
  | some path => return some path
  | none => firstFile? files (manifestNames.map (FilePath.join options.project))

/-- The routes of a project. -/
def routesOf (files : FileAccess m) (options : GenerateOptions) (config : Config) :
    ExceptT RunError m (List HostRoute) := do
  match ← (manifest? files options : m _) with
  | some path => inContext (.manifest path) (readManifest files path)
  | none => (discoverRoutes files config : m _)

/-- Generate the document of a project. -/
def generate (files : FileAccess m) (options : GenerateOptions) : ExceptT RunError m String := do
  checkProject files options.project
  let config ← configOf files options
  let routes ← routesOf files options config
  let document ← (generateDocument files config routes : m _)
  let text := document.print options.format
  match outputPath? config options with
  | some path =>
      inContext (.output path) (writeArtifact files path text)
      return ""
  | none => return text ++ "\n"

/-- Print the document in a file, in the format of the file. -/
def printArtifact (files : FileAccess m) (path : String) : ExceptT RunError m String := do
  let document ← inContext (.artifact path) (readArtifact files path)
  return document.print (DataFormat.ofPath path) ++ "\n"

/-- Run a command. -/
def Command.run (files : FileAccess m) : Command → ExceptT RunError m String
  | generate options => CommandLine.generate files options
  | read path => printArtifact files path

end AnnotatedApi.CommandLine
