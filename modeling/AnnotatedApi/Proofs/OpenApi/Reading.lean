import AnnotatedApi.OpenApi.Reading
import AnnotatedApi.Proofs.Datum.Domain
import AnnotatedApi.Proofs.OpenApi.Lawful

/-! # What is read is lawful

Whatever part of a document is read, no map in it has a name twice, and the optional JSON values in
it are those that the domain of the data allows. There is one law for the reader of each kind of
part, which goes through the fields in the order in which they are read. -/

namespace AnnotatedApi

open Datum
open Read (Yields Agrees)

variable {D : Datum → Prop} {allowed : Json → Prop} {extra : Nat} {d : Datum}

/-! ## Fields -/

section Fields

variable {slot : Option Datum}

/-- A text that may be null or not there. -/
theorem yields_maybe_text (hslot : ∀ d ∈ slot, D d) :
    Yields D extra (fun _ => True) (maybe readText slot) :=
  (yields_maybe (fun _ => yields_readText) hslot).imp fun _ _ => trivial

/-- A boolean that may be null or not there. -/
theorem yields_maybe_bool (hslot : ∀ d ∈ slot, D d) :
    Yields D extra (fun _ => True) (maybe readBool slot) :=
  (yields_maybe (fun _ => yields_readBool) hslot).imp fun _ _ => trivial

namespace Datum.Domain

variable (h : Domain D allowed)
include h

/-- A JSON value that may be null or not there. -/
theorem yields_maybe_json (hslot : ∀ d ∈ slot, D d) :
    Yields D extra (LawfulValue allowed) (maybe readJson slot) :=
  yields_orElse (fun v hv => absurd hv (Option.not_mem_none v)) (fun _ hd => h.yields_json hd) hslot

/-- A list of JSON values that may be null or not there. -/
theorem yields_maybe_jsonList (hslot : ∀ d ∈ slot, D d) :
    Yields D extra LawfulValues (maybe (listOf readJson) slot) :=
  yields_maybe (fun _ hd => h.yields_listOf (fun _ hd => h.yields_readJson hd) hd) hslot

/-- A map. -/
theorem yields_map {lawful : α → Prop} {reader : Reader α}
    (hreader : ∀ d, D d → Yields D extra lawful (reader d)) (hd : D d) :
    Yields D extra (LawfulMap lawful) (membersOf reader d) :=
  (h.yields_membersOf hreader hd).imp fun _ hmembers => ⟨hmembers.1, hmembers.2⟩

/-- Named JSON values that may be null or not there. -/
theorem yields_maybe_examples (hslot : ∀ d ∈ slot, D d) :
    Yields D extra LawfulExamples (maybe (membersOf readJson) slot) :=
  yields_maybe (fun _ hd => h.yields_map (fun _ hd => h.yields_readJson hd) hd) hslot

/-- A map that is empty where it is not there. -/
theorem yields_orElse_map {lawful : α → Prop} {reader : Reader α}
    (hreader : ∀ d, D d → Yields D extra lawful (reader d)) (hslot : ∀ d ∈ slot, D d) :
    Yields D extra (LawfulMap lawful) (orElse [] (membersOf reader) slot) :=
  yields_orElse .empty (fun _ hd => h.yields_map hreader hd) hslot

/-- A list that is empty where it is not there. -/
theorem yields_orElse_list {P : α → Prop} {reader : Reader α}
    (hreader : ∀ d, D d → Yields D extra P (reader d)) (hslot : ∀ d ∈ slot, D d) :
    Yields D extra (fun list => ∀ a ∈ list, P a) (orElse [] (listOf reader) slot) :=
  yields_orElse (List.forall_mem_nil _) (fun _ hd => h.yields_listOf hreader hd) hslot

/-- Texts, none where they are not there. -/
theorem yields_orElse_texts {default : List String} (hslot : ∀ d ∈ slot, D d) :
    Yields D extra (fun _ => True) (orElse default readTexts slot) :=
  yields_orElse trivial (fun _ hd => h.yields_readTexts hd) hslot

end Datum.Domain

end Fields

variable (h : Domain D allowed)
include h

/-! ## Schemas -/

/-- The pointer of a reference. -/
theorem Fragment.yields_readPointer (hd : D d) :
    Yields D extra (fun _ => True) (Fragment.readPointer d) := by
  refine h.yields_recordOf hd fun slots hslots => ?_
  split
  · exact yields_need (fun _ => yields_readText) (hslots _ List.mem_cons_self)
  · exact .failure

/-- A schema, given that the fragments in it are lawful. -/
theorem Schema.yields_readWith {fragment : Reader Fragment}
    (hfragment : ∀ d, D d → Yields D extra (Fragment.Lawful allowed) (fragment d)) (hd : D d) :
    Yields D extra (Schema.Lawful allowed) (Schema.readWith fragment d) := by
  refine h.yields_recordOf hd fun slots hslots => ?_
  split
  · simp only [SlotsIn, List.forall_mem_cons] at hslots
    obtain ⟨type, format, title, description, properties, required, items, enum, default,
      exampleValue, examples, nullable, readOnly, writeOnly, minLength, maxLength, minimum, maximum,
      pattern, -⟩ := hslots
    exact (yields_maybe_text type).bind fun _ _ => (yields_maybe_text format).bind fun _ _ =>
      (yields_maybe_text title).bind fun _ _ => (yields_maybe_text description).bind fun _ _ =>
      (h.yields_orElse_map hfragment properties).bind fun _ hproperties =>
      (h.yields_orElse_texts required).bind fun _ _ =>
      (yields_maybe hfragment items).bind fun _ hitems =>
      (h.yields_maybe_jsonList enum).bind fun _ henum =>
      (h.yields_maybe_json default).bind fun _ hdefault =>
      (h.yields_maybe_json exampleValue).bind fun _ hexample =>
      (h.yields_maybe_jsonList examples).bind fun _ hexamples =>
      (yields_maybe_bool nullable).bind fun _ _ => (yields_maybe_bool readOnly).bind fun _ _ =>
      (yields_maybe_bool writeOnly).bind fun _ _ =>
      (yields_maybe (fun _ => yields_readNat) minLength).bind fun _ _ =>
      (yields_maybe (fun _ => yields_readNat) maxLength).bind fun _ _ =>
      (yields_maybe (fun _ => yields_readNumber) minimum).bind fun _ _ =>
      (yields_maybe (fun _ => yields_readNumber) maximum).bind fun _ _ =>
      (yields_maybe_text pattern).bind fun _ _ =>
      .pure ⟨⟨henum, hdefault, hexample, hexamples⟩, hitems, hproperties⟩
  · exact .failure

/-- A settled fragment. -/
theorem Fragment.yields_readSettled (levels : Nat) (hd : D d) :
    Yields D 0 (Fragment.Lawful allowed) (Fragment.readSettled levels d) := by
  induction levels generalizing d with
  | zero => exact .failure
  | succ levels ih =>
      -- a reference is tried first; a schema in place has its fragments on one level less
      refine Agrees.orElse ?_ ?_
      · exact (Fragment.yields_readPointer h hd).bind fun pointer _ => .pure (.ref pointer)
      · refine (Schema.yields_readWith h (fun _ => ih) hd).bind fun schema hschema => .pure ?_
        exact Fragment.lawful_inline_iff.mpr hschema

/-- A fragment. -/
theorem Fragment.yields_read (hd : D d) :
    Yields D extra (Fragment.Lawful allowed) (Fragment.read d) :=
  h.yields_settled (fun d hd => Fragment.yields_readSettled h (d.depth + 1) hd) hd

/-! ## Security -/

/-- A security scheme. -/
theorem SecurityScheme.yields_read (hd : D d) :
    Yields D extra SecurityScheme.Lawful (SecurityScheme.read d) := by
  refine h.yields_recordOf hd fun slots hslots => ?_
  split
  · simp only [SlotsIn, List.forall_mem_cons] at hslots
    obtain ⟨type, description, name, location, scheme, bearerFormat, flows, openIdConnectUrl, -⟩ :=
      hslots
    exact (yields_maybe_text type).bind fun _ _ => (yields_maybe_text description).bind fun _ _ =>
      (yields_maybe_text name).bind fun _ _ => (yields_maybe_text location).bind fun _ _ =>
      (yields_maybe_text scheme).bind fun _ _ => (yields_maybe_text bearerFormat).bind fun _ _ =>
      (h.yields_maybe_examples flows).bind fun _ hflows =>
      (yields_maybe_text openIdConnectUrl).bind fun _ _ => .pure hflows
  · exact .failure

/-- A security requirement. -/
theorem SecurityRequirement.yields_read (hd : D d) :
    Yields D extra SecurityRequirement.Lawful (SecurityRequirement.read d) :=
  (h.yields_membersOf (fun _ hd => h.yields_readTexts hd) hd).imp fun _ hmembers => hmembers.1

/-! ## Parts of operations -/

omit h in
/-- The location of a parameter. -/
theorem ParameterLocation.yields_readDatum (hd : D d) :
    Yields D extra (fun _ => True) (ParameterLocation.readDatum d) := by
  refine (yields_resolve hd).bind fun value hvalue => ?_
  split
  · exact Agrees.within (.found fun _ _ => trivial)
  · split
    · exact .found fun _ _ => trivial
    · exact .failure
  · exact .failure
  · exact (yields_readText hvalue).bind fun _ _ => .found fun _ _ => trivial

/-- A parameter. -/
theorem Parameter.yields_read (hd : D d) :
    Yields D extra (Parameter.Lawful allowed) (Parameter.read d) := by
  refine h.yields_recordOf hd fun slots hslots => ?_
  split
  · simp only [SlotsIn, List.forall_mem_cons] at hslots
    obtain ⟨name, location, description, required, deprecated, schema, exampleValue, examples, -⟩ :=
      hslots
    exact (yields_need (fun _ => yields_readText) name).bind fun _ _ =>
      (yields_need (fun _ => ParameterLocation.yields_readDatum) location).bind fun _ _ =>
      (yields_maybe_text description).bind fun _ _ =>
      (yields_orElse trivial (fun _ => yields_readBool) required).bind fun _ _ =>
      (yields_maybe_bool deprecated).bind fun _ _ =>
      (yields_maybe (fun _ => Fragment.yields_read h) schema).bind fun _ hschema =>
      (h.yields_maybe_json exampleValue).bind fun _ hexample =>
      (h.yields_maybe_examples examples).bind fun _ hexamples =>
      .pure ⟨hschema, hexample, hexamples⟩
  · exact .failure

/-- The content of a media type. -/
theorem MediaType.yields_read (hd : D d) :
    Yields D extra (MediaType.Lawful allowed) (MediaType.read d) := by
  refine h.yields_recordOf hd fun slots hslots => ?_
  split
  · simp only [SlotsIn, List.forall_mem_cons] at hslots
    obtain ⟨schema, exampleValue, examples, -⟩ := hslots
    exact (yields_maybe (fun _ => Fragment.yields_read h) schema).bind fun _ hschema =>
      (h.yields_maybe_json exampleValue).bind fun _ hexample =>
      (h.yields_maybe_examples examples).bind fun _ hexamples =>
      .pure ⟨hschema, hexample, hexamples⟩
  · exact .failure

/-- A header. -/
theorem Header.yields_read (hd : D d) :
    Yields D extra (Header.Lawful allowed) (Header.read d) := by
  refine h.yields_recordOf hd fun slots hslots => ?_
  split
  · simp only [SlotsIn, List.forall_mem_cons] at hslots
    obtain ⟨description, schema, -⟩ := hslots
    exact (yields_maybe_text description).bind fun _ _ =>
      (yields_maybe (fun _ => Fragment.yields_read h) schema).bind fun _ hschema => .pure hschema
  · exact .failure

/-- A response. -/
theorem Response.yields_read (hd : D d) :
    Yields D extra (Response.Lawful allowed) (Response.read d) := by
  refine h.yields_recordOf hd fun slots hslots => ?_
  split
  · simp only [SlotsIn, List.forall_mem_cons] at hslots
    obtain ⟨description, headers, content, -⟩ := hslots
    exact (yields_orElse trivial (fun _ => yields_readText) description).bind fun _ _ =>
      (h.yields_orElse_map (fun _ => Header.yields_read h) headers).bind fun _ hheaders =>
      (h.yields_orElse_map (fun _ => MediaType.yields_read h) content).bind fun _ hcontent =>
      .pure ⟨hheaders, hcontent⟩
  · exact .failure

/-! ## Parts of documents -/

/-- A contact. -/
theorem Contact.yields_read (hd : D d) : Yields D extra (fun _ => True) (Contact.read d) := by
  refine h.yields_recordOf hd fun slots hslots => ?_
  split
  · simp only [SlotsIn, List.forall_mem_cons] at hslots
    obtain ⟨name, email, url, -⟩ := hslots
    exact (yields_maybe_text name).bind fun _ _ => (yields_maybe_text email).bind fun _ _ =>
      (yields_maybe_text url).bind fun _ _ => .pure trivial
  · exact .failure

/-- What the API is. -/
theorem Info.yields_read (hd : D d) : Yields D extra (fun _ => True) (Info.read d) := by
  refine h.yields_recordOf hd fun slots hslots => ?_
  split
  · simp only [SlotsIn, List.forall_mem_cons] at hslots
    obtain ⟨title, version, description, contact, -⟩ := hslots
    exact (yields_orElse trivial (fun _ => yields_readText) title).bind fun _ _ =>
      (yields_orElse trivial (fun _ => yields_readText) version).bind fun _ _ =>
      (yields_maybe_text description).bind fun _ _ =>
      (yields_maybe (fun _ => Contact.yields_read h) contact).bind fun _ _ => .pure trivial
  · exact .failure

/-- A server. -/
theorem Server.yields_read (hd : D d) : Yields D extra (fun _ => True) (Server.read d) := by
  refine h.yields_recordOf hd fun slots hslots => ?_
  split
  · simp only [SlotsIn, List.forall_mem_cons] at hslots
    obtain ⟨url, description, -⟩ := hslots
    exact (yields_need (fun _ => yields_readText) url).bind fun _ _ =>
      (yields_maybe_text description).bind fun _ _ => .pure trivial
  · exact .failure

/-- A link to documentation elsewhere. -/
theorem ExternalDocs.yields_read (hd : D d) :
    Yields D extra (fun _ => True) (ExternalDocs.read d) := by
  refine h.yields_recordOf hd fun slots hslots => ?_
  split
  · simp only [SlotsIn, List.forall_mem_cons] at hslots
    obtain ⟨url, description, -⟩ := hslots
    exact (yields_need (fun _ => yields_readText) url).bind fun _ _ =>
      (yields_maybe_text description).bind fun _ _ => .pure trivial
  · exact .failure

/-- A tag. -/
theorem Tag.yields_read (hd : D d) : Yields D extra (fun _ => True) (Tag.read d) := by
  refine h.yields_recordOf hd fun slots hslots => ?_
  split
  · simp only [SlotsIn, List.forall_mem_cons] at hslots
    obtain ⟨name, description, externalDocs, -⟩ := hslots
    exact (yields_need (fun _ => yields_readText) name).bind fun _ _ =>
      (yields_maybe_text description).bind fun _ _ =>
      (yields_maybe (fun _ => ExternalDocs.yields_read h) externalDocs).bind fun _ _ =>
      .pure trivial
  · exact .failure

end AnnotatedApi
