import AnnotatedApi.OpenApi.Document
import AnnotatedApi.Proofs.Json.Collected

/-! # Lawful documents

A document is lawful when no map in it has a name twice, be it a map of the document or of a JSON
value in it, and when the optional JSON values in it are allowed ones. These values are the default
and the example of a schema and the example of a parameter and of a media type. One of them that is
null looks like one that is not there, so the documents that can be read back are those where all
values but null are allowed. -/

namespace AnnotatedApi

variable {allowed : Json → Prop}

/-! ## Values that may not be there -/

section Optional

variable {P : α → Prop}

/-- Nothing is said of a value that is not there. -/
theorem forall_mem_none : ∀ a ∈ (none : Option α), P a :=
  fun a ha => absurd ha (Option.not_mem_none a)

/-- What holds of a value holds of it as one that may not be there. -/
theorem forall_mem_some {a : α} (h : P a) : ∀ b ∈ some a, P b := by
  rintro _ ⟨⟩
  exact h

/-- What holds of two values that may not be there holds of the first one that is. -/
theorem forall_mem_orElse {first second : Option α} (hfirst : ∀ a ∈ first, P a)
    (hsecond : ∀ a ∈ second, P a) : ∀ a ∈ (first <|> second), P a := by
  cases first with
  | none => exact hsecond
  | some a => exact hfirst

end Optional

/-! ## Values and maps -/

/-- A JSON value that may not be there: it is allowed, and no name in it is repeated. -/
def LawfulValue (allowed : Json → Prop) (value : Option Json) : Prop :=
  ∀ v ∈ value, v.IsCollected ∧ allowed v

/-- JSON values that may not be there: no name in them is repeated. -/
def LawfulValues (values : Option (List Json)) : Prop :=
  ∀ list ∈ values, ∀ v ∈ list, v.IsCollected

/-- A map: its names differ, and its values are lawful. -/
structure LawfulMap (lawful : α → Prop) (members : List (String × α)) : Prop where
  nodup : (memberNames members).Nodup
  each : ∀ entry ∈ members, lawful entry.2

namespace LawfulMap

variable {lawful : α → Prop} {members : List (String × α)}

/-- The map without members. -/
theorem empty : LawfulMap lawful [] :=
  ⟨List.nodup_nil, List.forall_mem_nil _⟩

/-- A member that is added. -/
theorem addMember (h : LawfulMap lawful members) (name : String) {value : α}
    (hvalue : lawful value) : LawfulMap lawful (addMember name value members) :=
  ⟨nodup_addMember h.nodup, forall_mem_addMember hvalue h.each⟩

/-- Members that are set. -/
theorem putMembers (h : LawfulMap lawful members) {added : List (String × α)}
    (hadded : ∀ entry ∈ added, lawful entry.2) : LawfulMap lawful (putMembers added members) :=
  ⟨nodup_putMembers h.nodup, forall_mem_putMembers hadded h.each⟩

/-- Members that are collected. -/
theorem collectMembers (h : ∀ entry ∈ members, lawful entry.2) :
    LawfulMap lawful (collectMembers members) :=
  empty.putMembers h

/-- Values that are made from others under names that differ. -/
theorem mapMembers {others : List (String × β)} (hnodup : (memberNames others).Nodup)
    {f : β → α} (hf : ∀ entry ∈ others, lawful (f entry.2)) :
    LawfulMap lawful (mapMembers f others) where
  nodup := by
    rw [memberNames_mapMembers]
    exact hnodup
  each := forall_mem_mapMembers hf

/-- A map is lawful in any sense in which its values are. -/
theorem imp (h : LawfulMap lawful members) {lawful' : α → Prop}
    (himp : ∀ entry ∈ members, lawful entry.2 → lawful' entry.2) : LawfulMap lawful' members :=
  ⟨h.nodup, fun entry hentry => himp entry hentry (h.each entry hentry)⟩

end LawfulMap

/-- A map of JSON values that may not be there. -/
def LawfulExamples (examples : Option (List (String × Json))) : Prop :=
  ∀ members ∈ examples, LawfulMap Json.IsCollected members

/-! ## Schemas -/

/-- The keywords of a schema that hold JSON values. -/
structure Schema.LawfulKeywords (allowed : Json → Prop) (schema : Schema) : Prop where
  enum : LawfulValues schema.enum
  default : LawfulValue allowed schema.default
  exampleValue : LawfulValue allowed schema.exampleValue
  examples : LawfulValues schema.examples

/-- A lawful fragment: a reference, or a schema in place with lawful parts. -/
inductive Fragment.Lawful (allowed : Json → Prop) : Fragment → Prop
  | ref (pointer : String) : Lawful allowed (.ref pointer)
  | inline {schema : Schema} (keywords : schema.LawfulKeywords allowed)
      (items : ∀ fragment ∈ schema.items, Lawful allowed fragment)
      (nodup : (memberNames schema.properties).Nodup)
      (properties : ∀ entry ∈ schema.properties, Lawful allowed entry.2) :
      Lawful allowed (.inline schema)

/-- A fragment that is lawful if it is there. -/
def LawfulOption (allowed : Json → Prop) (fragment? : Option Fragment) : Prop :=
  ∀ fragment ∈ fragment?, fragment.Lawful allowed

/-- A lawful schema. -/
structure Schema.Lawful (allowed : Json → Prop) (schema : Schema) : Prop where
  keywords : schema.LawfulKeywords allowed
  items : LawfulOption allowed schema.items
  properties : LawfulMap (Fragment.Lawful allowed) schema.properties

/-- A schema in place is lawful as a fragment when it is as a schema. -/
theorem Fragment.lawful_inline_iff {schema : Schema} :
    (Fragment.inline schema).Lawful allowed ↔ schema.Lawful allowed := by
  constructor
  · intro h
    cases h with
    | inline keywords items nodup properties => exact ⟨keywords, items, nodup, properties⟩
  · intro h
    exact .inline h.keywords h.items h.properties.nodup h.properties.each

/-! ## Parts of operations -/

/-- A lawful parameter. -/
structure Parameter.Lawful (allowed : Json → Prop) (p : Parameter) : Prop where
  schema : LawfulOption allowed p.schema
  exampleValue : LawfulValue allowed p.exampleValue
  examples : LawfulExamples p.examples

/-- A lawful content of a media type. -/
structure MediaType.Lawful (allowed : Json → Prop) (m : MediaType) : Prop where
  schema : LawfulOption allowed m.schema
  exampleValue : LawfulValue allowed m.exampleValue
  examples : LawfulExamples m.examples

/-- A lawful body of a request. -/
def RequestBody.Lawful (allowed : Json → Prop) (b : RequestBody) : Prop :=
  LawfulMap (MediaType.Lawful allowed) b.content

/-- A lawful header. -/
def Header.Lawful (allowed : Json → Prop) (h : Header) : Prop :=
  LawfulOption allowed h.schema

/-- A lawful response. -/
structure Response.Lawful (allowed : Json → Prop) (r : Response) : Prop where
  headers : LawfulMap (Header.Lawful allowed) r.headers
  content : LawfulMap (MediaType.Lawful allowed) r.content

/-- A lawful requirement names no scheme twice. -/
def SecurityRequirement.Lawful (requirement : SecurityRequirement) : Prop :=
  (memberNames requirement).Nodup

/-- A lawful operation. -/
structure Operation.Lawful (allowed : Json → Prop) (o : Operation) : Prop where
  parameters : ∀ p ∈ o.parameters, p.Lawful allowed
  requestBody : ∀ body ∈ o.requestBody, body.Lawful allowed
  responses : LawfulMap (Response.Lawful allowed) o.responses
  security : ∀ requirements ∈ o.security, ∀ requirement ∈ requirements, requirement.Lawful

/-! ## Documents -/

/-- A lawful security scheme. -/
def SecurityScheme.Lawful (s : SecurityScheme) : Prop :=
  LawfulExamples s.flows

/-- Lawful parts that operations share. -/
structure Components.Lawful (allowed : Json → Prop) (c : Components) : Prop where
  schemas : LawfulMap (Fragment.Lawful allowed) c.schemas
  securitySchemes : LawfulMap SecurityScheme.Lawful c.securitySchemes
  parameters : LawfulMap (Parameter.Lawful allowed) c.parameters
  responses : LawfulMap (Response.Lawful allowed) c.responses

/-- A lawful document. -/
structure Document.Lawful (allowed : Json → Prop) (document : Document) : Prop where
  paths : LawfulMap (LawfulMap (Operation.Lawful allowed)) document.paths
  components : document.components.Lawful allowed
  security : ∀ requirement ∈ document.security, requirement.Lawful

end AnnotatedApi
