import AnnotatedApi.Config.Basic
import AnnotatedApi.Proofs.Config.Reading

/-! # Values that parts of a document hold

The optional JSON values of a document are the defaults and examples of schemas at any depth, and
the examples of parameters and media types. What is lawful without regard to these values is lawful
where the values that it holds are allowed, and only there. -/

namespace AnnotatedApi

/-- The fragment holds the value as a default or an example, at some depth. -/
inductive Fragment.Holds (value : Json) : Fragment → Prop
  | default {schema : Schema} (h : schema.default = some value) : Holds value (.inline schema)
  | exampleValue {schema : Schema} (h : schema.exampleValue = some value) :
      Holds value (.inline schema)
  | items {schema : Schema} {fragment : Fragment} (hitems : schema.items = some fragment)
      (h : Holds value fragment) : Holds value (.inline schema)
  | property {schema : Schema} {entry : String × Fragment} (hentry : entry ∈ schema.properties)
      (h : Holds value entry.2) : Holds value (.inline schema)

/-- The parameter holds the value as an example, or its schema does. -/
def Parameter.Holds (p : Parameter) (value : Json) : Prop :=
  p.exampleValue = some value ∨ ∃ fragment ∈ p.schema, fragment.Holds value

/-- The media type holds the value as an example, or its schema does. -/
def MediaType.Holds (m : MediaType) (value : Json) : Prop :=
  m.exampleValue = some value ∨ ∃ fragment ∈ m.schema, fragment.Holds value

/-- The schema of the header holds the value. -/
def Header.Holds (h : Header) (value : Json) : Prop :=
  ∃ fragment ∈ h.schema, fragment.Holds value

/-- A header or a media type of the response holds the value. -/
def Response.Holds (r : Response) (value : Json) : Prop :=
  (∃ entry ∈ r.headers, entry.2.Holds value) ∨ ∃ entry ∈ r.content, entry.2.Holds value

/-- A parameter or a response of the configuration holds the value. -/
def Config.Holds (config : Config) (value : Json) : Prop :=
  (∃ entry ∈ config.parameters, entry.2.Holds value) ∨
    ∃ entry ∈ config.responses, entry.2.Holds value

variable {allowed allowed' : Json → Prop}

/-! ## Fragments -/

/-- A value is allowed also where fewer are, if it is one of these. -/
theorem LawfulValue.imp {value : Option Json} (h : LawfulValue allowed value)
    (himp : ∀ v ∈ value, allowed v → allowed' v) : LawfulValue allowed' value :=
  fun v hv => ⟨(h v hv).1, himp v hv (h v hv).2⟩

/-- A fragment that is lawful otherwise is lawful where the values it holds are allowed. -/
theorem Fragment.Lawful.of_holds {f : Fragment} (h : f.Lawful allowed)
    (hholds : ∀ v, f.Holds v → allowed' v) : f.Lawful allowed' := by
  induction h with
  | ref pointer => exact .ref pointer
  | inline keywords items nodup properties ihItems ihProperties =>
      refine .inline ?_ ?_ nodup ?_
      · exact {
          enum := keywords.enum
          default := keywords.default.imp fun v hv _ => hholds v (.default hv)
          exampleValue := keywords.exampleValue.imp fun v hv _ => hholds v (.exampleValue hv)
          examples := keywords.examples }
      · intro fragment hfragment
        exact ihItems fragment hfragment fun v hv => hholds v (.items hfragment hv)
      · intro entry hentry
        exact ihProperties entry hentry fun v hv => hholds v (.property hentry hv)

/-- The values that a lawful fragment holds are allowed. -/
theorem Fragment.Lawful.of_mem_holds {f : Fragment} (h : f.Lawful allowed) {v : Json}
    (hv : f.Holds v) : allowed v := by
  induction hv with
  | default hdefault =>
      cases h with
      | inline keywords items nodup properties => exact (keywords.default _ hdefault).2
  | exampleValue hexample =>
      cases h with
      | inline keywords items nodup properties => exact (keywords.exampleValue _ hexample).2
  | items hitems _ ih =>
      cases h with
      | inline keywords items nodup properties => exact ih (items _ hitems)
  | property hentry _ ih =>
      cases h with
      | inline keywords items nodup properties => exact ih (properties _ hentry)

/-! ## Parts of operations -/

/-- A parameter that is lawful otherwise is lawful where the values it holds are allowed. -/
theorem Parameter.Lawful.of_holds {p : Parameter} (h : p.Lawful allowed)
    (hholds : ∀ v, p.Holds v → allowed' v) : p.Lawful allowed' where
  schema f hf := (h.schema f hf).of_holds fun v hv => hholds v (.inr ⟨f, hf, hv⟩)
  exampleValue := h.exampleValue.imp fun v hv _ => hholds v (.inl hv)
  examples := h.examples

/-- A media type that is lawful otherwise is lawful where the values it holds are allowed. -/
theorem MediaType.Lawful.of_holds {m : MediaType} (h : m.Lawful allowed)
    (hholds : ∀ v, m.Holds v → allowed' v) : m.Lawful allowed' where
  schema f hf := (h.schema f hf).of_holds fun v hv => hholds v (.inr ⟨f, hf, hv⟩)
  exampleValue := h.exampleValue.imp fun v hv _ => hholds v (.inl hv)
  examples := h.examples

/-- A response that is lawful otherwise is lawful where the values it holds are allowed. -/
theorem Response.Lawful.of_holds {r : Response} (h : r.Lawful allowed)
    (hholds : ∀ v, r.Holds v → allowed' v) : r.Lawful allowed' where
  headers := h.headers.imp fun entry hentry hheader f hf =>
    (hheader f hf).of_holds fun v hv => hholds v (.inl ⟨entry, hentry, f, hf, hv⟩)
  content := h.content.imp fun entry hentry hmedia =>
    hmedia.of_holds fun v hv => hholds v (.inr ⟨entry, hentry, hv⟩)

/-- The values that a lawful parameter holds are allowed. -/
theorem Parameter.Lawful.of_mem_holds {p : Parameter} (h : p.Lawful allowed) {v : Json}
    (hv : p.Holds v) : allowed v := by
  rcases hv with hexample | ⟨f, hf, hv⟩
  · exact (h.exampleValue v hexample).2
  · exact (h.schema f hf).of_mem_holds hv

/-- The values that a lawful response holds are allowed. -/
theorem Response.Lawful.of_mem_holds {r : Response} (h : r.Lawful allowed) {v : Json}
    (hv : r.Holds v) : allowed v := by
  rcases hv with ⟨entry, hentry, f, hf, hv⟩ | ⟨entry, hentry, hv⟩
  · exact (h.headers.each entry hentry f hf).of_mem_holds hv
  · have hmedia := h.content.each entry hentry
    rcases hv with hexample | ⟨f, hf, hv⟩
    · exact (hmedia.exampleValue v hexample).2
    · exact (hmedia.schema f hf).of_mem_holds hv

/-! ## Configurations -/

namespace Config.Lawful

variable {config : Config}

/-- A configuration that is lawful otherwise is lawful where the values it holds are allowed. -/
theorem of_holds (h : config.Lawful allowed) (hholds : ∀ v, config.Holds v → allowed' v) :
    config.Lawful allowed' where
  securitySchemes := h.securitySchemes
  security := h.security
  parameters := h.parameters.imp fun entry hentry hparameter =>
    hparameter.of_holds fun v hv => hholds v (.inl ⟨entry, hentry, hv⟩)
  responses := h.responses.imp fun entry hentry hresponse =>
    hresponse.of_holds fun v hv => hholds v (.inr ⟨entry, hentry, hv⟩)

/-- The values that a lawful configuration holds are allowed. -/
theorem of_mem_holds (h : config.Lawful allowed) {v : Json} (hv : config.Holds v) : allowed v := by
  rcases hv with ⟨entry, hentry, hv⟩ | ⟨entry, hentry, hv⟩
  · exact (h.parameters.each entry hentry).of_mem_holds hv
  · exact (h.responses.each entry hentry).of_mem_holds hv

end Config.Lawful

end AnnotatedApi
