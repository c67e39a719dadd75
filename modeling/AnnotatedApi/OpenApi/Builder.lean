import AnnotatedApi.OpenApi.Document
import AnnotatedApi.Route.Basic

/-! # Building documents

A document is built by adding its parts one after the other. The last operation of an address and
method stays, and the first schema of a name; a tag that is added again only fills in what was not
set. -/

namespace AnnotatedApi

/-- The version of the format that documents declare. -/
def openApiVersion : String := "3.0.3"

namespace Document

/-- A document without operations. -/
def ofInfo (info : Info) : Document :=
  { version := openApiVersion, info }

/-- Add an operation; it replaces an earlier one of its address and method. -/
def addOperation (uri : String) (method : HttpMethod) (operation : Operation)
    (document : Document) : Document :=
  let item := (getMember? uri document.paths).getD []
  { document with paths := putMember uri (putMember method.name operation item) document.paths }

/-- Add a schema, unless one of its name is there. -/
def addSchema (name : String) (schema : Fragment) (document : Document) : Document :=
  { document with
    components := { document.components with
      schemas := addMember name schema document.components.schemas } }

/-- Add a security scheme. -/
def addSecurityScheme (name : String) (scheme : SecurityScheme) (document : Document) : Document :=
  { document with
    components := { document.components with
      securitySchemes := putMember name scheme document.components.securitySchemes } }

/-- Add a parameter. -/
def addParameter (name : String) (parameter : Parameter) (document : Document) : Document :=
  { document with
    components := { document.components with
      parameters := putMember name parameter document.components.parameters } }

/-- Add a response. -/
def addResponse (name : String) (response : Response) (document : Document) : Document :=
  { document with
    components := { document.components with
      responses := putMember name response document.components.responses } }

end Document

/-- What a tag says, completed by what another of the same name says. -/
def Tag.completedBy (first second : Tag) : Tag :=
  { first with
    description := first.description <|> second.description
    externalDocs := first.externalDocs <|> second.externalDocs }

/-- Add a tag to tags, or complete the one of its name. -/
def addTag (tag : Tag) : List Tag → List Tag
  | [] => [tag]
  | first :: rest =>
      if first.name = tag.name then first.completedBy tag :: rest else first :: addTag tag rest

namespace Document

/-- Add a tag, or complete the one of its name. -/
def addTag (tag : Tag) (document : Document) : Document :=
  { document with tags := AnnotatedApi.addTag tag document.tags }

/-- The finished document; a document without servers gets the default one. -/
def finish (document : Document) : Document :=
  { document with
    servers := if document.servers.isEmpty then [.default] else document.servers }

end Document

end AnnotatedApi
