import AnnotatedApi.OpenApi.Security

/-! # Documents

A document describes an API: its operations by address and method, and the schemas, security
schemes, parameters and responses that they share. Parts that are not set are left out of the JSON
value of a document. -/

namespace AnnotatedApi

/-! ## Parts of operations -/

/-- A parameter of an operation. -/
structure Parameter where
  name : String
  location : ParameterLocation
  description : Option String := none
  required : Bool := false
  deprecated : Option Bool := none
  schema : Option Fragment := none
  exampleValue : Option Json := none
  examples : Option (List (String × Json)) := none

/-- The content of one media type. -/
structure MediaType where
  schema : Option Fragment := none
  exampleValue : Option Json := none
  examples : Option (List (String × Json)) := none

/-- The body of a request. -/
structure RequestBody where
  description : Option String := none
  required : Bool := false
  content : List (String × MediaType) := []

/-- A header of a response. -/
structure Header where
  description : Option String := none
  schema : Option Fragment := none

/-- A response. -/
structure Response where
  description : String := ""
  headers : List (String × Header) := []
  content : List (String × MediaType) := []

/-- An operation. -/
structure Operation where
  tags : List String := []
  summary : Option String := none
  description : Option String := none
  operationId : Option String := none
  parameters : List Parameter := []
  requestBody : Option RequestBody := none
  responses : List (String × Response) := []
  deprecated : Option Bool := none
  security : Option (List SecurityRequirement) := none

/-! ## Parts of documents -/

/-- How to reach those who are responsible. -/
structure Contact where
  name : Option String := none
  email : Option String := none
  url : Option String := none

/-- Whether no way is given. -/
def Contact.isEmpty (c : Contact) : Bool :=
  c.name.isNone && c.email.isNone && c.url.isNone

/-- What the API is. -/
structure Info where
  title : String := "API"
  version : String := "1.0.0"
  description : Option String := none
  contact : Option Contact := none

/-- Where the API is served. -/
structure Server where
  url : String
  description : Option String := none

/-- The server of a document that names none. -/
def Server.default : Server :=
  { url := "http://localhost", description := some "Default Server" }

/-- Documentation elsewhere. -/
structure ExternalDocs where
  url : String
  description : Option String := none

/-- A tag. -/
structure Tag where
  name : String
  description : Option String := none
  externalDocs : Option ExternalDocs := none

/-- What operations share. -/
structure Components where
  schemas : List (String × Fragment) := []
  securitySchemes : List (String × SecurityScheme) := []
  parameters : List (String × Parameter) := []
  responses : List (String × Response) := []

/-- The operations of one address by method. -/
abbrev PathItem : Type := List (String × Operation)

/-- A document. -/
structure Document where
  version : String
  info : Info := {}
  servers : List Server := []
  paths : List (String × PathItem) := []
  components : Components := {}
  security : List SecurityRequirement := []
  tags : List Tag := []

namespace Document

/-- The operation of an address and a method. -/
def operation? (document : Document) (uri method : String) : Option Operation :=
  (getMember? uri document.paths).bind (getMember? method)

/-- The number of operations. -/
def operationCount (document : Document) : Nat :=
  (document.paths.flatMap Prod.snd).length

end Document

/-! ## Documents as JSON -/

/-- The JSON value of named parts. -/
def membersToJson (toJson : α → Json) (members : List (String × α)) : Json :=
  .object (mapMembers toJson members)

/-- The member of named parts that is left out when there are none. -/
def namedMember (name : String) (toJson : α → Json) (members : List (String × α)) :
    List (String × Json) :=
  if members.isEmpty then [] else [(name, membersToJson toJson members)]

/-- The JSON value of a parameter. -/
def Parameter.toJson (p : Parameter) : Json :=
  .object <|
    [("name", .text p.name), ("in", .text p.location.name)] ++
    optionalMember "description" .text p.description ++
    [("required", .bool p.required)] ++
    optionalMember "deprecated" .bool p.deprecated ++
    optionalMember "schema" Fragment.toJson p.schema ++
    optionalMember "example" id p.exampleValue ++
    optionalMember "examples" .object p.examples

/-- The JSON value of a media type's content. -/
def MediaType.toJson (m : MediaType) : Json :=
  .object <|
    optionalMember "schema" Fragment.toJson m.schema ++
    optionalMember "example" id m.exampleValue ++
    optionalMember "examples" .object m.examples

/-- The JSON value of a request body. -/
def RequestBody.toJson (b : RequestBody) : Json :=
  .object <|
    optionalMember "description" .text b.description ++
    [("required", .bool b.required), ("content", membersToJson MediaType.toJson b.content)]

/-- The JSON value of a header. -/
def Header.toJson (h : Header) : Json :=
  .object <|
    optionalMember "description" .text h.description ++
    optionalMember "schema" Fragment.toJson h.schema

/-- The JSON value of a response. -/
def Response.toJson (r : Response) : Json :=
  .object <|
    [("description", .text r.description)] ++
    namedMember "headers" Header.toJson r.headers ++
    namedMember "content" MediaType.toJson r.content

/-- The JSON value of an operation. -/
def Operation.toJson (o : Operation) : Json :=
  .object <|
    listMember "tags" .texts o.tags ++
    optionalMember "summary" .text o.summary ++
    optionalMember "description" .text o.description ++
    optionalMember "operationId" .text o.operationId ++
    listMember "parameters" (fun ps => .array (ps.map Parameter.toJson)) o.parameters ++
    optionalMember "requestBody" RequestBody.toJson o.requestBody ++
    [("responses", membersToJson Response.toJson o.responses)] ++
    optionalMember "deprecated" .bool o.deprecated ++
    optionalMember "security" requirementsToJson o.security

/-- The JSON value of a contact. -/
def Contact.toJson (c : Contact) : Json :=
  .object <|
    optionalMember "name" .text c.name ++
    optionalMember "email" .text c.email ++
    optionalMember "url" .text c.url

/-- The JSON value of what the API is. -/
def Info.toJson (i : Info) : Json :=
  .object <|
    [("title", .text i.title), ("version", .text i.version)] ++
    optionalMember "description" .text i.description ++
    optionalMember "contact" Contact.toJson i.contact

/-- The JSON value of a server. -/
def Server.toJson (s : Server) : Json :=
  .object <|
    [("url", .text s.url)] ++
    optionalMember "description" .text s.description

/-- The JSON value of a link to documentation elsewhere. -/
def ExternalDocs.toJson (d : ExternalDocs) : Json :=
  .object <|
    [("url", .text d.url)] ++
    optionalMember "description" .text d.description

/-- The JSON value of a tag. -/
def Tag.toJson (t : Tag) : Json :=
  .object <|
    [("name", .text t.name)] ++
    optionalMember "description" .text t.description ++
    optionalMember "externalDocs" ExternalDocs.toJson t.externalDocs

/-- The JSON value of what operations share. -/
def Components.toJson (c : Components) : Json :=
  .object <|
    [("schemas", membersToJson Fragment.toJson c.schemas)] ++
    namedMember "securitySchemes" SecurityScheme.toJson c.securitySchemes ++
    namedMember "parameters" Parameter.toJson c.parameters ++
    namedMember "responses" Response.toJson c.responses

/-- The JSON value of a document. -/
def Document.toJson (d : Document) : Json :=
  .object <|
    [("openapi", .text d.version), ("info", d.info.toJson)] ++
    listMember "servers" (fun ss => .array (ss.map Server.toJson)) d.servers ++
    [("paths", membersToJson (membersToJson Operation.toJson) d.paths),
     ("components", d.components.toJson)] ++
    listMember "security" requirementsToJson d.security ++
    listMember "tags" (fun ts => .array (ts.map Tag.toJson)) d.tags

end AnnotatedApi
