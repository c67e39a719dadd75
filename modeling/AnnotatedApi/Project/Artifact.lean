import AnnotatedApi.Files.Format
import AnnotatedApi.OpenApi.Reading
import AnnotatedApi.Project.Failure

/-! # Documents in files

A document is written to a file as a whole and can be read back. -/

namespace AnnotatedApi

/-- The text of a document in a format. -/
def Document.print (document : Document) (format : DataFormat) : String :=
  format.print document.toJson

/-- The document in the text of a file. -/
def Document.ofText (path text : String) : Except Failure Document :=
  if Text.isBlankText text then .error (.emptyDocument path)
  else
    match ((DataFormat.ofPath path).read? text).bind (·.read? Document.read) with
    | some document => .ok document
    | none => .error (.badDocument path)

variable [Monad m]

/-- Write a text to a file. -/
def writeArtifact (files : FileAccess m) (path text : String) : ExceptT Failure m Unit :=
  ExceptT.mk do
    match ← files.write path text.toUTF8 with
    | .ok () => return .ok ()
    | .error _ => return .error (.inaccessible path)

/-- Read the document in a file. -/
def readArtifact (files : FileAccess m) (path : String) : ExceptT Failure m Document :=
  ExceptT.mk do
    match ← files.readText path with
    | .ok text => return Document.ofText path text
    | .error .notFound => return .error (.notGenerated path)
    | .error .inaccessible => return .error (.inaccessible path)

end AnnotatedApi
