import AnnotatedApi.Files.Access
import AnnotatedApi.Route.Manifest

/-! # Failures of runs

What is wrong with sources and annotations never makes a run fail; it only leaves something out of
the document. A run fails on files that cannot be read or written, and on configurations, manifests
and documents that are malformed. -/

namespace AnnotatedApi

/-- Why a file does not hold what it should. -/
inductive Failure where
  | inaccessible (path : String)
  | badConfig (path : String)
  | badManifest (path : String) (cause : Route.ManifestError)
  /-- There is no document at the path. -/
  | notGenerated (path : String)
  | emptyDocument (path : String)
  | badDocument (path : String)
  deriving DecidableEq, Repr

/-- The message of a failure. -/
def Failure.message : Failure → String
  | inaccessible path => "cannot access " ++ path
  | badConfig path => "invalid configuration " ++ path
  | badManifest path cause =>
      "invalid route manifest " ++ path ++ (cause.message?.elim "" fun text => ": " ++ text)
  | notGenerated path => "document has not been generated yet: " ++ path
  | emptyDocument path => "document at " ++ path ++ " has invalid content: file is empty"
  | badDocument path => "document at " ++ path ++ " has invalid content"

end AnnotatedApi
