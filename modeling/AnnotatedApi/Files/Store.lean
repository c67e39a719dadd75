import AnnotatedApi.Files.Access
import AnnotatedApi.Text.Blank

/-! # Stores of files

A store holds the files in a working directory as a value. A path is followed name by name; on the
way, two dots lead back only from what is a directory. What surrounds the working directory counts
as directories without files. -/

namespace AnnotatedApi

/-- A place in a store: the names that lead to it from the working directory. Names of two dots in
front lead out of it, and a slash in front to the root. -/
abbrev Location : Type := List String

/-- What a store holds at a place. -/
inductive Stored where
  | file (content : ByteArray)
  | directory

/-- The files and the empty directories in a working directory. -/
structure FileStore where
  entries : List (Location × Stored) := []

namespace Location

/-- Whether a place is the working directory or around it. -/
def isOutside (place : Location) : Bool :=
  place.all fun name => name == ".." || name == "/"

/-- The directory that holds a place. -/
def parent (place : Location) : Location :=
  if place == ["/"] then place
  else if place.isOutside then place ++ [".."]
  else place.dropLast

/-- The names that lead from one place to another below it. -/
def below? : Location → Location → Option Location
  | [], rest => some rest
  | _ :: _, [] => none
  | a :: front, b :: rest => if a = b then below? front rest else none

/-- Whether a text can be the name of a file: it takes up no more than 255 bytes, none of them
zero. -/
def isName (name : String) : Bool :=
  name.utf8ByteSize ≤ 255 && !name.toList.contains (Char.ofNat 0)

end Location

namespace FileStore

/-! ## Places -/

/-- What is stored at a place itself. -/
def get? (store : FileStore) (place : Location) : Option Stored :=
  (store.entries.find? fun entry => entry.1 == place).map Prod.snd

/-- The content of the file at a place. -/
def fileAt? (store : FileStore) (place : Location) : Option ByteArray :=
  match store.get? place with
  | some (.file content) => some content
  | _ => none

/-- Whether a stored thing makes a place a directory: it is an empty one there, or anything
below. -/
def spansDirectory (place : Location) (entry : Location × Stored) : Bool :=
  match Location.below? place entry.1, entry.2 with
  | some [], .directory => true
  | some (_ :: _), _ => true
  | _, _ => false

/-- Whether a place is a directory. -/
def isDirectoryAt (store : FileStore) (place : Location) : Bool :=
  place.isOutside || store.entries.any (spansDirectory place)

/-- Store something at a place, instead of what is stored there. -/
def put (store : FileStore) (place : Location) (stored : Stored) : FileStore :=
  ⟨(store.entries.filter fun entry => entry.1 != place) ++ [(place, stored)]⟩

/-! ## Paths -/

/-- Follow one piece of a path from a directory. -/
def follow (place : Location) (piece : String) : Except FileError Location :=
  if piece == "" || piece == "." then .ok place
  else if piece == ".." then .ok place.parent
  else if Location.isName piece then .ok (place ++ [piece])
  else .error .inaccessible

/-- Follow one piece of a path from a place that has to be a directory. -/
def step (store : FileStore) (place : Location) (piece : String) : Except FileError Location :=
  if store.isDirectoryAt place then follow place piece
  else .error (if (store.fileAt? place).isSome then .inaccessible else .notFound)

/-- Follow one piece of a path from a place that has to be a directory or can become one. -/
def stepCreating (store : FileStore) (place : Location) (piece : String) :
    Except FileError Location :=
  if (store.fileAt? place).isSome then .error .inaccessible else follow place piece

/-- Where a path starts. -/
def start (path : String) : Location :=
  if Text.startsWith path "/" then ["/"] else []

/-- The place that a path leads to. -/
def locate (store : FileStore) (path : String) : Except FileError Location :=
  if path == "" then .error .notFound
  else (Text.splitChar '/' path).foldlM store.step (start path)

/-- The place that a path leads to once the directories on the way are created. The path has to end
in a name. -/
def locateCreating (store : FileStore) (path : String) : Except FileError Location := do
  let pieces := Text.splitChar '/' path
  let directory ← pieces.dropLast.foldlM store.stepCreating (start path)
  match pieces.getLast? with
  | some name =>
      if ["", ".", ".."].contains name then .error .inaccessible
      else store.stepCreating directory name
  | none => .error .inaccessible

/-! ## Operations -/

/-- Whether there is a file at a path. -/
def isFile (store : FileStore) (path : String) : Bool :=
  match store.locate path with
  | .ok place => (store.fileAt? place).isSome
  | .error _ => false

/-- Whether there is a directory at a path. -/
def isDirectory (store : FileStore) (path : String) : Bool :=
  match store.locate path with
  | .ok place => store.isDirectoryAt place
  | .error _ => false

/-- The content of the file at a path. -/
def read (store : FileStore) (path : String) : Except FileError ByteArray := do
  let place ← store.locate path
  match store.fileAt? place with
  | some content => .ok content
  | none => .error (if store.isDirectoryAt place then .inaccessible else .notFound)

/-- Replace the file at a path. -/
def write (store : FileStore) (path : String) (content : ByteArray) :
    Except FileError FileStore := do
  let place ← store.locateCreating path
  if store.isDirectoryAt place then .error .inaccessible
  else .ok (store.put place (.file content))

/-- The names that lead from a directory to a stored file below it, unless one is to be skipped. -/
def fileBelow? (isSkipped : String → Bool) (directory : Location) (entry : Location × Stored) :
    Option (List String) :=
  match Location.below? directory entry.1, entry.2 with
  | some names, .file _ => if names.any isSkipped then none else some names
  | _, _ => none

/-- The files below the directory at a path. -/
def filesBelow (isSkipped : String → Bool) (store : FileStore) (path : String) :
    List (List String) :=
  match store.locate path with
  | .ok directory => store.entries.filterMap (fileBelow? isSkipped directory)
  | .error _ => []

/-- Access to the files of a store. -/
def access : FileAccess (StateM FileStore) where
  isFile path := return (← get).isFile path
  isDirectory path := return (← get).isDirectory path
  read path := return (← get).read path
  write path content := do
    match (← get).write path content with
    | .ok store =>
        set store
        return .ok ()
    | .error e => return .error e
  filesBelow isSkipped path := return (← get).filesBelow isSkipped path

end FileStore

end AnnotatedApi
