import AnnotatedApi.OpenApi.Document
import AnnotatedApi.Text.Words

/-! # Conventional parts of operations

The schemas, parameters and responses that an operation gets when its handler declares none. -/

namespace AnnotatedApi

/-- The media type of JSON. -/
def jsonMediaType : String := "application/json"

/-- The content that is JSON of the given shape. -/
def jsonContent (schema : Fragment) : List (String × MediaType) :=
  [(jsonMediaType, { schema := some schema })]

/-- A response whose body is JSON of the given shape. -/
def Response.json (description : String) (schema : Fragment) : Response :=
  { description, content := jsonContent schema }

namespace Fragment

/-- An object of which nothing is known. -/
def anyObject : Fragment :=
  .inline (.typed "object")

/-- An object with the given properties. -/
def object (properties : List (String × Fragment)) : Fragment :=
  .inline (.object properties)

/-- A value of a type, with an example. -/
def sample (type : String) (value : Json) : Fragment :=
  .inline { type := some type, exampleValue := some value }

/-- A string of a format. -/
def formatted (format : String) : Fragment :=
  .inline (.formatted "string" format)

/-- A point in time. -/
def dateTime : Fragment := formatted "date-time"

/-- An address. -/
def uri : Fragment := formatted "uri"

/-- An address or null. -/
def nullableUri : Fragment :=
  .inline { Schema.formatted "string" "uri" with nullable := some true }

/-- A text with a description. -/
def described (description : String) : Fragment :=
  .inline { type := some "string", description := some description }

/-- An object with a message. -/
def message (text : String) : Fragment :=
  object [("message", sample "string" (.text text))]

/-- A page of items, with links to other pages and the place of this one. -/
def page (items : Fragment) : Fragment :=
  object [
    ("data", .inline (.arrayOf items)),
    ("links", object [("first", uri), ("last", uri), ("prev", nullableUri), ("next", nullableUri)]),
    ("meta", object [
      ("current_page", sample "integer" (.int 1)),
      ("from", sample "integer" (.int 1)),
      ("last_page", sample "integer" (.int 5)),
      ("path", uri),
      ("per_page", sample "integer" (.int 15)),
      ("to", sample "integer" (.int 15)),
      ("total", sample "integer" (.int 75))])]

/-- What stands for a resource of which there is no model. -/
def genericResource (resource : String) : Fragment :=
  object [
    ("id", sample "integer" (.int 1)),
    ("name", sample "string" (.text (Text.capitalize resource ++ " name"))),
    ("description", sample "string" (.text ("Description of the " ++ resource))),
    ("created_at", dateTime),
    ("updated_at", dateTime)]

/-- What stands for a created record of no known resource. -/
def createdRecord : Fragment :=
  object [("id", sample "integer" (.int 1)), ("created_at", dateTime), ("updated_at", dateTime)]

/-- What stands for an updated record of no known resource. -/
def updatedRecord : Fragment :=
  object [("id", sample "integer" (.int 1)), ("updated_at", dateTime)]

/-- The input for a resource of which there is no model. -/
def genericInput (label : String) : Fragment :=
  object [
    ("name", described (label ++ " name")),
    ("description", described (label ++ " description"))]

end Fragment

namespace Response

/-- The response when there is no such resource. -/
def notFound : Response :=
  .json "Resource not found" (.message "Resource not found")

/-- The response when the input is not valid. -/
def validationError : Response :=
  .json "Validation error" <| .object [
    ("message", .sample "string" (.text "The given data was invalid.")),
    ("errors", .sample "object"
      (.object [("name", .array [.text "The name field is required."])]))]

/-- The response when anything else goes wrong. -/
def unexpected : Response :=
  .json "Unexpected error" (.message "An unexpected error occurred")

end Response

namespace Parameter

/-- A parameter of the query that may be left out. -/
def query (name description : String) (schema : Schema) : Parameter :=
  { name
    location := .query
    description := some description
    schema := some (.inline schema) }

/-- The parameters that choose a page of a list and its order. -/
def pagination : List Parameter :=
  [query "page" "Page number for pagination"
      { type := some "integer", default := some (.int 1) },
   query "per_page" "Number of items per page"
      { type := some "integer", default := some (.int 15) },
   query "sort_by" "Field to sort by" (.typed "string"),
   query "sort_direction" "Direction to sort (asc or desc)"
      { type := some "string"
        enum := some [.text "asc", .text "desc"]
        default := some (.text "asc") }]

end Parameter

end AnnotatedApi
