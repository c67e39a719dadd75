import AnnotatedApi.Text.Letters
import AnnotatedApi.Text.Blank

/-! # Parameter locations

Where a request carries a parameter. -/

namespace AnnotatedApi

/-- Where a request carries a parameter. -/
inductive ParameterLocation where
  | query
  | header
  | path
  | cookie
  deriving DecidableEq, Repr

namespace ParameterLocation

/-- Every location. -/
def all : List ParameterLocation := [query, header, path, cookie]

/-- The name of a location in documents. -/
def name : ParameterLocation → String
  | query => "query"
  | header => "header"
  | path => "path"
  | cookie => "cookie"

/-- The location of a name. -/
def ofName? (text : String) : Option ParameterLocation :=
  all.find? (·.name == text)

/-- The location that a text names in any case, with blanks around it. -/
def read? (text : String) : Option ParameterLocation :=
  ofName? (Text.lower (Text.trim text))

/-- The message for a text that names no location. -/
def unknownMessage (text : String) : String :=
  let tick := String.singleton (Char.ofNat 96)
  "unknown parameter location " ++ tick ++ Text.lower (Text.trim text) ++ tick

/-- Every location is found by its name. -/
@[simp] theorem ofName?_name (l : ParameterLocation) : ofName? l.name = some l := by
  cases l <;> decide

end ParameterLocation

end AnnotatedApi
