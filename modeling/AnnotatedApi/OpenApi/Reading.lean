import AnnotatedApi.OpenApi.Document
import AnnotatedApi.Datum.Reader

/-! # Reading parts of documents

A document is read back from the data it was written as. A fragment is a reference if it can be read
as one, and otherwise a schema; in either case its scalars are settled first. -/

namespace AnnotatedApi

open Datum

/-! ## Schemas -/

/-- Read the pointer of a reference. -/
def Fragment.readPointer : Reader String :=
  recordOf [["$ref"]] fun
    | [pointer] => need readText pointer
    | _ => failure

/-- Read a schema, given how to read the fragments in it. -/
def Schema.readWith (fragment : Reader Fragment) : Reader Schema :=
  recordOf [["type"], ["format"], ["title"], ["description"], ["properties"], ["required"],
      ["items"], ["enum"], ["default"], ["example"], ["examples"], ["nullable"], ["readOnly"],
      ["writeOnly"], ["minLength"], ["maxLength"], ["minimum"], ["maximum"], ["pattern"]] fun
    | [type, format, title, description, properties, required, items, enum, default,
        exampleValue, examples, nullable, readOnly, writeOnly, minLength, maxLength, minimum,
        maximum, pattern] => do
        return {
          type := ← maybe readText type
          format := ← maybe readText format
          title := ← maybe readText title
          description := ← maybe readText description
          properties := ← orElse [] (membersOf fragment) properties
          required := ← orElse [] readTexts required
          items := ← maybe fragment items
          enum := ← maybe (listOf readJson) enum
          default := ← maybe readJson default
          exampleValue := ← maybe readJson exampleValue
          examples := ← maybe (listOf readJson) examples
          nullable := ← maybe readBool nullable
          readOnly := ← maybe readBool readOnly
          writeOnly := ← maybe readBool writeOnly
          minLength := ← maybe readNat minLength
          maxLength := ← maybe readNat maxLength
          minimum := ← maybe readNumber minimum
          maximum := ← maybe readNumber maximum
          pattern := ← maybe readText pattern }
    | _ => failure

/-- Read a fragment from a settled datum that nests at most as deep as the first argument says. -/
def Fragment.readSettled : Nat → Reader Fragment
  | 0, _ => failure
  | depth + 1, d =>
      (return .ref (← Fragment.readPointer d)) <|>
        (return .inline (← Schema.readWith (Fragment.readSettled depth) d))

/-- Read a fragment. -/
def Fragment.read : Reader Fragment :=
  settled fun d => Fragment.readSettled (d.depth + 1) d

/-! ## Security -/

/-- Read a security scheme. -/
def SecurityScheme.read : Reader SecurityScheme :=
  recordOf [["type"], ["description"], ["name"], ["in", "location"], ["scheme"],
      ["bearerFormat", "bearer_format"], ["flows"],
      ["openIdConnectUrl", "open_id_connect_url"]] fun
    | [type, description, name, location, scheme, bearerFormat, flows, openIdConnectUrl] => do
        return {
          type := ← maybe readText type
          description := ← maybe readText description
          name := ← maybe readText name
          location := ← maybe readText location
          scheme := ← maybe readText scheme
          bearerFormat := ← maybe readText bearerFormat
          flows := ← maybe (membersOf readJson) flows
          openIdConnectUrl := ← maybe readText openIdConnectUrl }
    | _ => failure

/-- Read a security requirement. -/
def SecurityRequirement.read : Reader SecurityRequirement :=
  membersOf readTexts

/-! ## Parts of operations -/

/-- Read the location of a parameter: its name, a tag of that name before nothing, or a record with
the name and null. -/
def ParameterLocation.readDatum : Reader ParameterLocation := fun d => do
  match ← resolve d with
  | .record [(.text name, .null)] => within (found (ofName? name))
  | .scalar .plain (some (.own name)) written =>
      if written == "" || Plain.isNullWord written then found (ofName? name) else failure
  | .scalar _ (some (.own _)) _ => failure
  | d => found (ofName? (← readText d))

/-- Read a parameter. -/
def Parameter.read : Reader Parameter :=
  recordOf [["name"], ["in"], ["description"], ["required"], ["deprecated"], ["schema"],
      ["example"], ["examples"]] fun
    | [name, location, description, required, deprecated, schema, exampleValue, examples] => do
        return {
          name := ← need readText name
          location := ← need ParameterLocation.readDatum location
          description := ← maybe readText description
          required := ← orElse false readBool required
          deprecated := ← maybe readBool deprecated
          schema := ← maybe Fragment.read schema
          exampleValue := ← maybe readJson exampleValue
          examples := ← maybe (membersOf readJson) examples }
    | _ => failure

/-- Read the content of a media type. -/
def MediaType.read : Reader MediaType :=
  recordOf [["schema"], ["example"], ["examples"]] fun
    | [schema, exampleValue, examples] => do
        return {
          schema := ← maybe Fragment.read schema
          exampleValue := ← maybe readJson exampleValue
          examples := ← maybe (membersOf readJson) examples }
    | _ => failure

/-- Read the body of a request. -/
def RequestBody.read : Reader RequestBody :=
  recordOf [["description"], ["required"], ["content"]] fun
    | [description, required, content] => do
        return {
          description := ← maybe readText description
          required := ← orElse false readBool required
          content := ← orElse [] (membersOf MediaType.read) content }
    | _ => failure

/-- Read a header. -/
def Header.read : Reader Header :=
  recordOf [["description"], ["schema"]] fun
    | [description, schema] => do
        return {
          description := ← maybe readText description
          schema := ← maybe Fragment.read schema }
    | _ => failure

/-- Read a response. -/
def Response.read : Reader Response :=
  recordOf [["description"], ["headers"], ["content"]] fun
    | [description, headers, content] => do
        return {
          description := ← orElse "" readText description
          headers := ← orElse [] (membersOf Header.read) headers
          content := ← orElse [] (membersOf MediaType.read) content }
    | _ => failure

/-- Read an operation. -/
def Operation.read : Reader Operation :=
  recordOf [["tags"], ["summary"], ["description"], ["operationId"], ["parameters"],
      ["requestBody"], ["responses"], ["deprecated"], ["security"]] fun
    | [tags, summary, description, operationId, parameters, requestBody, responses, deprecated,
        security] => do
        return {
          tags := ← orElse [] readTexts tags
          summary := ← maybe readText summary
          description := ← maybe readText description
          operationId := ← maybe readText operationId
          parameters := ← orElse [] (listOf Parameter.read) parameters
          requestBody := ← maybe RequestBody.read requestBody
          responses := ← orElse [] (membersOf Response.read) responses
          deprecated := ← maybe readBool deprecated
          security := ← maybe (listOf SecurityRequirement.read) security }
    | _ => failure

/-! ## Parts of documents -/

/-- Read a contact. -/
def Contact.read : Reader Contact :=
  recordOf [["name"], ["email"], ["url"]] fun
    | [name, email, url] => do
        return {
          name := ← maybe readText name
          email := ← maybe readText email
          url := ← maybe readText url }
    | _ => failure

/-- Read what the API is. -/
def Info.read : Reader Info :=
  recordOf [["title"], ["version"], ["description"], ["contact"]] fun
    | [title, version, description, contact] => do
        return {
          title := ← orElse "API" readText title
          version := ← orElse "1.0.0" readText version
          description := ← maybe readText description
          contact := ← maybe Contact.read contact }
    | _ => failure

/-- Read a server. -/
def Server.read : Reader Server :=
  recordOf [["url"], ["description"]] fun
    | [url, description] => do
        return { url := ← need readText url, description := ← maybe readText description }
    | _ => failure

/-- Read a link to documentation elsewhere. -/
def ExternalDocs.read : Reader ExternalDocs :=
  recordOf [["url"], ["description"]] fun
    | [url, description] => do
        return { url := ← need readText url, description := ← maybe readText description }
    | _ => failure

/-- Read a tag. -/
def Tag.read : Reader Tag :=
  recordOf [["name"], ["description"], ["externalDocs", "external_docs"]] fun
    | [name, description, externalDocs] => do
        return {
          name := ← need readText name
          description := ← maybe readText description
          externalDocs := ← maybe ExternalDocs.read externalDocs }
    | _ => failure

/-- Read what operations share. -/
def Components.read : Reader Components :=
  recordOf [["schemas"], ["securitySchemes"], ["parameters"], ["responses"]] fun
    | [schemas, securitySchemes, parameters, responses] => do
        return {
          schemas := ← orElse [] (membersOf Fragment.read) schemas
          securitySchemes := ← orElse [] (membersOf SecurityScheme.read) securitySchemes
          parameters := ← orElse [] (membersOf Parameter.read) parameters
          responses := ← orElse [] (membersOf Response.read) responses }
    | _ => failure

/-- Read a document. -/
def Document.read : Reader Document :=
  recordOf [["openapi"], ["info"], ["servers"], ["paths"], ["components"], ["security"],
      ["tags"]] fun
    | [version, info, servers, paths, components, security, tags] => do
        return {
          version := ← need readText version
          info := ← need Info.read info
          servers := ← orElse [] (listOf Server.read) servers
          paths := ← orElse [] (membersOf (membersOf Operation.read)) paths
          components := ← orElse {} Components.read components
          security := ← orElse [] (listOf SecurityRequirement.read) security
          tags := ← orElse [] (listOf Tag.read) tags }
    | _ => failure

end AnnotatedApi
