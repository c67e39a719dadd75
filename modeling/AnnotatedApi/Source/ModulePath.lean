import AnnotatedApi.Files.Path

/-! # Module paths of files

The place of a file below the root of the sources gives the path of the module it makes up. -/

namespace AnnotatedApi.Source

/-- A component of a file's path as a segment of a module path. -/
def moduleSegment (component : String) : String :=
  String.ofList (component.toList.map fun c => if c = '-' then '_' else c)

/-- A file's name without its ending. -/
def fileStem (name : String) : String :=
  match Text.stripBack? ".rs".toList name.toList with
  | some stem => String.ofList stem
  | none => name

/-- Whether a file makes up the module of its directory: `mod.rs` anywhere, and the files of the
crate itself at the root. -/
def isDirectoryModule (directories : List String) (stem : String) : Bool :=
  stem == "mod" || (directories.isEmpty && (stem == "lib" || stem == "main"))

/-- The segments that the components of a file's path give. -/
def moduleSegments (components : List String) : List String :=
  match components.getLast? with
  | none => []
  | some last =>
      let directories := components.dropLast
      let stem := fileStem last
      if isDirectoryModule directories stem then directories else directories ++ [stem]

/-- The module path of a file under a namespace. A file that is not below the root keeps all
components of its path. -/
def modulePathFor (root file namespaceName : String) : String :=
  let components := (FilePath.componentsBelow? root file).getD (FilePath.components file)
  let segments := namespaceName :: (moduleSegments components).map moduleSegment
  Text.joinPath (segments.filter (· != ""))

/-- The namespace of a directory: that of the root, continued by the directories below it. A
directory that is not below the root has the namespace of the root. -/
def namespaceFor (root directory namespaceName : String) : String :=
  ((FilePath.componentsBelow? root directory).getD []).foldl
    (fun path component => path ++ "::" ++ moduleSegment component) namespaceName

end AnnotatedApi.Source
