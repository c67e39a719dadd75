/-! # Access to files

What a program needs of the files around it, as operations in a monad. The operations take paths as
they are written; relative ones start from the working directory. -/

namespace AnnotatedApi

/-- Why a file cannot be read or written. -/
inductive FileError where
  | notFound
  /-- There is something at the path, but no file, or the file holds no text. -/
  | inaccessible
  deriving DecidableEq, Repr

/-- The operations on files. -/
structure FileAccess (m : Type → Type) where
  isFile : String → m Bool
  isDirectory : String → m Bool
  read : String → m (Except FileError ByteArray)
  /-- Replace a file. Directories on the way to it are created. -/
  write : String → ByteArray → m (Except FileError Unit)
  /-- The files below a directory, each by the names that lead to it, without those on whose way
  there is a name that is to be skipped. -/
  filesBelow : (String → Bool) → String → m (List (List String))

namespace FileAccess

/-- The text of a file. -/
def readText [Monad m] (files : FileAccess m) (path : String) : m (Except FileError String) :=
  return (← files.read path).bind fun bytes =>
    match String.fromUTF8? bytes with
    | some text => .ok text
    | none => .error .inaccessible

/-- Whether there is a file or a directory at a path. -/
def isPresent [Monad m] (files : FileAccess m) (path : String) : m Bool :=
  return (← files.isFile path) || (← files.isDirectory path)

end FileAccess

end AnnotatedApi
