import AnnotatedApi.Schema.Basic
import AnnotatedApi.Text.Blank

/-! # Security schemes and requirements

A security scheme says how requests are authorized; each type of scheme needs some fields. A
requirement names schemes that hold together. -/

namespace AnnotatedApi

/-- A security scheme. Every field is optional, so that an incomplete scheme can be told apart from
an unreadable one. -/
structure SecurityScheme where
  type : Option String := none
  description : Option String := none
  name : Option String := none
  location : Option String := none
  scheme : Option String := none
  bearerFormat : Option String := none
  flows : Option (List (String × Json)) := none
  openIdConnectUrl : Option String := none

/-- What an incomplete security scheme lacks. -/
inductive SchemeDefect where
  | noName
  | noLocation
  | noScheme
  | noFlow
  | noUrl
  | unknownType (type : String)
  | noType
  deriving DecidableEq, Repr

namespace SchemeDefect

/-- The message for a defect. -/
def message : SchemeDefect → String
  | noName => "apiKey scheme requires " ++ inTicks "name"
  | noLocation => "apiKey scheme requires " ++ inTicks "in" ++ " (query, header or cookie)"
  | noScheme => "http scheme requires " ++ inTicks "scheme"
  | noFlow => "oauth2 scheme requires at least one flow"
  | noUrl => "openIdConnect scheme requires " ++ inTicks "openIdConnectUrl"
  | unknownType type => "unknown security scheme type " ++ inTicks type
  | noType => "security scheme requires " ++ inTicks "type"

end SchemeDefect

namespace SecurityScheme

/-- Whether a field is set to more than blanks. -/
def isPresent (value : Option String) : Bool :=
  match value with
  | some text => !Text.isBlankText text
  | none => false

/-- The first defect of a scheme of the type for keys. -/
def apiKeyDefect? (s : SecurityScheme) : Option SchemeDefect :=
  if !isPresent s.name then some .noName
  else
    match s.location with
    | some location =>
        if ["query", "header", "cookie"].contains location then none else some .noLocation
    | none => some .noLocation

/-- Whether at least one flow is declared. -/
def hasFlow (s : SecurityScheme) : Bool :=
  match s.flows with
  | some (_ :: _) => true
  | _ => false

/-- The first defect of a scheme, if there is one. -/
def defect? (s : SecurityScheme) : Option SchemeDefect :=
  match s.type with
  | none => some .noType
  | some "apiKey" => s.apiKeyDefect?
  | some "http" => if isPresent s.scheme then none else some .noScheme
  | some "oauth2" => if s.hasFlow then none else some .noFlow
  | some "openIdConnect" => if isPresent s.openIdConnectUrl then none else some .noUrl
  | some type => some (.unknownType type)

/-- Whether the scheme has no defect. -/
def isComplete (s : SecurityScheme) : Bool :=
  s.defect?.isNone

/-- The JSON value of a scheme. -/
def toJson (s : SecurityScheme) : Json :=
  .object <|
    optionalMember "type" .text s.type ++
    optionalMember "description" .text s.description ++
    optionalMember "name" .text s.name ++
    optionalMember "in" .text s.location ++
    optionalMember "scheme" .text s.scheme ++
    optionalMember "bearerFormat" .text s.bearerFormat ++
    optionalMember "flows" .object s.flows ++
    optionalMember "openIdConnectUrl" .text s.openIdConnectUrl

end SecurityScheme

/-! ## Requirements -/

namespace SecurityRequirement

/-- The JSON value of a requirement. -/
def toJson (requirement : SecurityRequirement) : Json :=
  .object (mapMembers .texts requirement)

/-- A requirement without the schemes that are not there. -/
def prune (schemes : List (String × SecurityScheme)) (requirement : SecurityRequirement) :
    SecurityRequirement :=
  requirement.filter fun entry => hasMember entry.1 schemes

end SecurityRequirement

/-- Requirements without the schemes that are not there; one that is left empty is dropped. -/
def pruneRequirements (schemes : List (String × SecurityScheme))
    (requirements : List SecurityRequirement) : List SecurityRequirement :=
  (requirements.map (SecurityRequirement.prune schemes)).filter fun kept => !kept.isEmpty

/-- The JSON value of alternative requirements. -/
def requirementsToJson (requirements : List SecurityRequirement) : Json :=
  .array (requirements.map SecurityRequirement.toJson)

end AnnotatedApi
