import AnnotatedApi.Members
import AnnotatedApi.Annotation.Argument
import AnnotatedApi.Text.Letters
import AnnotatedApi.Text.Blank

/-! # Routes of a host

A host answers requests by routes: the methods and the address they answer, and what they dispatch
to. -/

namespace AnnotatedApi

/-- A method of requests. -/
inductive HttpMethod where
  | get
  | post
  | put
  | patch
  | delete
  | head
  | options
  deriving DecidableEq, Repr

namespace HttpMethod

/-- The name of the method, in lower case. -/
def name : HttpMethod → String
  | get => "get"
  | post => "post"
  | put => "put"
  | patch => "patch"
  | delete => "delete"
  | head => "head"
  | options => "options"

/-- All methods. -/
def all : List HttpMethod := [get, post, put, patch, delete, head, options]

/-- The method of a name. -/
def ofName? (name : String) : Option HttpMethod :=
  all.find? fun method => method.name == name

/-- A method's name without its case and the blanks around it. -/
def fold (text : String) : String :=
  Text.lower (Text.trim text)

/-- The method that a text names, in any case and with blanks around it. -/
def read? (text : String) : Option HttpMethod :=
  ofName? (fold text)

/-- The message for a text that names no method. -/
def unknownMessage (text : String) : String :=
  "unknown HTTP method " ++ inTicks (fold text)

/-- Whether requests with the method usually carry a body. -/
def isMutating : HttpMethod → Bool
  | post => true
  | put => true
  | patch => true
  | _ => false

end HttpMethod

/-- What a route dispatches to, as hosts spell it. -/
inductive HandlerAction where
  /-- A type and a method with `@` between them, or a type alone. -/
  | reference (text : String)
  /-- A type or module and a method or function in it. -/
  | pair (owner method : String)
  /-- A function, wherever it is. -/
  | function (name : String)
  deriving DecidableEq, Repr

/-- A route of a host. -/
structure HostRoute where
  methods : List HttpMethod
  uri : String
  /-- Nothing for a closure and anything else without a name. -/
  action : Option HandlerAction := none
  name : Option String := none
  middleware : List String := []
  /-- The patterns that parameters must match. -/
  wheres : List (String × String) := []
  /-- The names of the parameters, where the host tells them. -/
  parameters : Option (List String) := none
  deriving DecidableEq, Repr

end AnnotatedApi
