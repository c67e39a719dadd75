import AnnotatedApi.Text.Blank

/-! # Paths of files

A path is a text with slashes between its components. Repeated slashes and single dots do not
count, except for a dot in front of a relative path; two dots count as a component. -/

namespace AnnotatedApi.FilePath

/-- Whether the path starts at the root. -/
def isAbsolute (path : String) : Bool :=
  Text.startsWith path "/"

/-- The components of a path; the root is one. -/
def components (path : String) : List String :=
  let pieces := (Text.splitChar '/' path).filter (· != "")
  if isAbsolute path then "/" :: pieces.filter (· != ".")
  else
    match pieces with
    | "." :: rest => "." :: rest.filter (· != ".")
    | _ => pieces.filter (· != ".")

/-- The path under another; an absolute one replaces it. -/
def join (base path : String) : String :=
  if isAbsolute path || base == "" then path
  else if Text.endsWith base "/" then base ++ path
  else base ++ "/" ++ path

/-- What follows some components in others that start with them. -/
def stripComponents? : List String → List String → Option (List String)
  | [], rest => some rest
  | _ :: _, [] => none
  | a :: front, b :: rest => if a = b then stripComponents? front rest else none

/-- The components of a path below a directory. -/
def componentsBelow? (directory path : String) : Option (List String) :=
  stripComponents? (components directory) (components path)

/-- The name of the file that a path leads to. -/
def fileName? (path : String) : Option String :=
  match (components path).getLast? with
  | some name => if ["/", ".", ".."].contains name then none else some name
  | none => none

/-- What follows the last dot of a file's name, unless the dot comes first. -/
def extension? (path : String) : Option String :=
  (fileName? path).bind fun name =>
    let back := name.toList.reverse
    let ending := back.takeWhile (· ≠ '.')
    match back.dropWhile (· ≠ '.') with
    | '.' :: _ :: _ => some (String.ofList ending.reverse)
    | _ => none

/-- The characters of a path, given in reverse, up to the end of its last component. -/
def dropTrailing : List Char → List Char
  | '/' :: rest => dropTrailing rest
  | '.' :: '/' :: rest => dropTrailing rest
  | chars => chars

/-- A path whose file has a name, with an ending added to it. -/
def addExtension (path ending : String) : String :=
  if (fileName? path).isNone then path
  else String.ofList (dropTrailing path.toList.reverse).reverse ++ "." ++ ending

end AnnotatedApi.FilePath
