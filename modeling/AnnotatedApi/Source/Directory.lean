import AnnotatedApi.Files.Access
import AnnotatedApi.Source.Index
import AnnotatedApi.Source.ModulePath

/-! # Source files of directories

The source files below a directory are found in the order of their names, directory by directory.
Hidden files and directories and build directories are left out. A file that cannot be read or that
is malformed is passed over with a warning, and so is a missing directory. -/

namespace AnnotatedApi.Source

/-- What is passed over while source files are read. -/
inductive ScanWarning where
  | missingDirectory (path : String)
  | unreadableFile (path : String)
  | malformedFile (path : String)
  deriving DecidableEq, Repr

/-- The message of a warning. -/
def ScanWarning.message : ScanWarning → String
  | missingDirectory path => "Directory does not exist: " ++ path
  | unreadableFile path => "Failed to read file: " ++ path
  | malformedFile path => "Failed to parse Rust syntax in file: " ++ path

/-! ## Finding files -/

/-- Whether a file or directory of the name is left out. -/
def isSkipped (name : String) : Bool :=
  Text.startsWith name "." || name == "target"

/-- Whether the file that names lead to is a source file. -/
def isSourceFile (names : List String) : Bool :=
  (names.getLast?.bind FilePath.extension?) == some "rs"

/-- The order of files: name by name. -/
def comesBefore (a b : List String) : Bool :=
  !decide (b < a)

/-- The path that names lead to from a directory. -/
def pathBelow (directory : String) (names : List String) : String :=
  names.foldl FilePath.join directory

/-- The source files that are found below a directory. -/
structure Listing where
  files : List String := []
  warnings : List ScanWarning := []

/-- Find the source files below a directory. -/
def listFiles [Monad m] (files : FileAccess m) (root : String) : m Listing := do
  if ← files.isDirectory root then
    let found := (← files.filesBelow isSkipped root).filter isSourceFile
    return { files := (found.mergeSort comesBefore).map (pathBelow root) }
  else return { warnings := [.missingDirectory root] }

/-! ## Reading files -/

/-- The source files that could be read, and what was passed over. -/
structure Sources where
  files : List ModuleFile := []
  warnings : List ScanWarning := []

/-- Read the text of a source file. -/
def fileOf (root namespaceName path : String) (text : Except FileError String) :
    Except ScanWarning ModuleFile :=
  match text with
  | .error _ => .error (.unreadableFile path)
  | .ok text =>
      match SourceFile.parse? text with
      | some file => .ok { path, modulePath := modulePathFor root path namespaceName, file }
      | none => .error (.malformedFile path)

/-- Add what became of a file. -/
def Sources.add (sources : Sources) (result : Except ScanWarning ModuleFile) : Sources :=
  match result with
  | .ok file => { sources with files := sources.files ++ [file] }
  | .error warning => { sources with warnings := sources.warnings ++ [warning] }

/-- Read the source files below a directory, whose modules are those of a namespace. -/
def readDirectory [Monad m] (files : FileAccess m) (root namespaceName : String) : m Sources := do
  let listing ← listFiles files root
  let results ← listing.files.mapM fun path =>
    return fileOf root namespaceName path (← files.readText path)
  return results.foldl Sources.add { warnings := listing.warnings }

end AnnotatedApi.Source
