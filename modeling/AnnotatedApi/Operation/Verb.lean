import AnnotatedApi.Route.Basic
import AnnotatedApi.Text.Words

/-! # What operations do

The name of a handler's method says by convention what the operation does. A handler without a
method of its own is classified by the method of the request. -/

namespace AnnotatedApi

/-- The conventional meaning of a handler's method. -/
inductive Verb where
  | list
  | read
  | create
  | update
  | delete
  | other (name : String)
  deriving DecidableEq, Repr

/-- The method of handlers that are only named by their type. -/
def invokeMethod : String := "invoke"

namespace Verb

/-- The meaning of a word. -/
def ofWord (word : String) : Verb :=
  if word == "index" || word == "list" then list
  else if word == "show" || word == "get" then read
  else if word == "store" || word == "create" then create
  else if word == "update" then update
  else if word == "destroy" || word == "delete" then delete
  else other word

/-- The meaning of a handler's method for requests of a method. -/
def classify (name : String) (method : HttpMethod) : Verb :=
  ofWord (if name == invokeMethod then method.name else name)

/-- The summary of an operation on a resource. -/
def summary (resource : String) : Verb → String
  | list => "List all " ++ Text.pluralize resource
  | read => "Get a specific " ++ resource
  | create => "Create a new " ++ resource
  | update => "Update a " ++ resource
  | delete => "Delete a " ++ resource
  | other name => Text.capitalize (Text.lowerWords name) ++ " " ++ resource

/-- The description of an operation on a resource. -/
def description (resource : String) : Verb → String
  | list => "Returns a list of " ++ resource ++ " resources."
  | read => "Returns a specific " ++ resource ++ " resource."
  | create => "Creates a new " ++ resource ++ " resource."
  | update => "Updates an existing " ++ resource ++ " resource."
  | delete => "Deletes a " ++ resource ++ " resource."
  | other name =>
      "Endpoint for " ++ Text.lowerWords name ++ " operation on " ++ resource ++ " resource."

end Verb

/-! ## Identifiers -/

/-- The identifier of an operation whose route has no name: `get_api_tasks_task` for `get` and
`/api/tasks/{task}`. -/
def operationIdFor (method : HttpMethod) (path : String) : String :=
  let words := path.toList.map fun c => if c = '/' then '_' else c
  method.name ++ String.ofList (words.filter fun c => Text.isAsciiAlphanumeric c || c == '_')

end AnnotatedApi
