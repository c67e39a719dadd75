import AnnotatedApi.Config.Basic
import AnnotatedApi.Files.Format
import AnnotatedApi.Project.Failure

/-! # Configurations and manifests in files -/

namespace AnnotatedApi

/-- The configuration in the text of a file. A blank text in YAML is the default configuration. -/
def Config.ofText (path text : String) : Except Failure Config :=
  let format := DataFormat.ofPath path
  if format == .yaml && Text.isBlankText text then .ok {}
  else
    match (format.read? text).bind (·.read? Config.read) with
    | some config => .ok config
    | none => .error (.badConfig path)

/-- The routes of the manifest in the text of a file. -/
def Route.manifestOfText (path text : String) : Except Failure (List HostRoute) :=
  match (DataFormat.ofPath path).read? text with
  | some file => (routesOfManifest file).mapError (.badManifest path)
  | none => .error (.badManifest path .unreadable)

variable [Monad m]

/-- Read a file whose text `read` turns into a value. -/
def readFileWith (files : FileAccess m) (read : String → String → Except Failure α)
    (path : String) : ExceptT Failure m α :=
  ExceptT.mk do
    match ← files.readText path with
    | .ok text => return read path text
    | .error _ => return .error (.inaccessible path)

/-- Read the configuration in a file. -/
def readConfig (files : FileAccess m) (path : String) : ExceptT Failure m Config :=
  readFileWith files Config.ofText path

/-- Read the routes of the manifest in a file. -/
def readManifest (files : FileAccess m) (path : String) : ExceptT Failure m (List HostRoute) :=
  readFileWith files Route.manifestOfText path

end AnnotatedApi
