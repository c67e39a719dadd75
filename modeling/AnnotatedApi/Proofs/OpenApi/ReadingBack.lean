import AnnotatedApi.OpenApi.Reading
import AnnotatedApi.Proofs.Datum.Record
import AnnotatedApi.Proofs.OpenApi.Lawful

/-! # Reading documents back

Every part of a lawful document is read back from the JSON value it is written as. For each kind of
part there is the equation that shows its JSON value as the slots of its fields, and the law that
these slots give the part again. A schema in place is never taken for a reference, as no keyword is
called `$ref`. -/

namespace AnnotatedApi

open Datum
open Read (Returns)

/-! ## Members and slots -/

theorem optionalMember_eq (name : String) (toJson : α → Json) (value : Option α) :
    optionalMember name toJson value = slotMember name (optionalSlot toJson value) := by
  cases value <;> rfl

theorem listMember_eq (name : String) (toJson : List α → Json) (values : List α) :
    listMember name toJson values = slotMember name (listSlot toJson values) := by
  cases values <;> rfl

theorem namedMember_eq (name : String) (toJson : α → Json) (members : List (String × α)) :
    namedMember name toJson members =
      slotMember name (listSlot (membersToJson toJson) members) := by
  cases members <;> rfl

/-- A map is read back when its names differ and its values are read back. -/
theorem LawfulMap.readsBack {lawful : α → Prop} {toJson : α → Json} {reader : Reader α}
    {members : List (String × α)} (h : LawfulMap lawful members)
    (heach : ∀ a, lawful a → ReadsBack toJson reader a) :
    ReadsBack (membersToJson toJson) (membersOf reader) members :=
  reads_membersOf h.nodup fun entry hentry => heach entry.2 (h.each entry hentry)

/-- Texts are read back. -/
theorem readsBack_texts (values : List String) : ReadsBack .texts readTexts values :=
  reads_listOf fun text _ => reads_readText text

section Values

variable {depth : Nat}

/-- A JSON value that is not null is read back. -/
theorem returns_maybe_json {value : Option Json} (h : LawfulValue (· ≠ .null) value)
    (hdepth : ∀ json ∈ optionalSlot id value, (ofJson json).depth < depth) :
    Returns depth (maybe readJson ((optionalSlot id value).map ofJson)) value :=
  returns_maybe (fun v hv => ⟨readsBack_readJson (h v hv).1, (h v hv).2⟩) hdepth

/-- A list of JSON values is read back. -/
theorem returns_maybe_jsonList {values : Option (List Json)} (h : LawfulValues values)
    (hdepth : ∀ json ∈ optionalSlot .array values, (ofJson json).depth < depth) :
    Returns depth (maybe (listOf readJson) ((optionalSlot .array values).map ofJson)) values :=
  returns_maybe (fun list hlist => ⟨readsBack_jsonList (h list hlist), Json.noConfusion⟩) hdepth

/-- Named JSON values are read back. -/
theorem returns_maybe_examples {examples : Option (List (String × Json))}
    (h : LawfulExamples examples)
    (hdepth : ∀ json ∈ optionalSlot .object examples, (ofJson json).depth < depth) :
    Returns depth (maybe (membersOf readJson) ((optionalSlot .object examples).map ofJson))
      examples := by
  refine returns_maybe (fun members hmembers => ⟨?_, Json.noConfusion⟩) hdepth
  exact readsBack_jsonMembers (h members hmembers).nodup (h members hmembers).each

end Values

/-! ## Schemas -/

/-- The fields of a schema. -/
def Schema.fieldNames : List FieldNames :=
  [["type"], ["format"], ["title"], ["description"], ["properties"], ["required"], ["items"],
    ["enum"], ["default"], ["example"], ["examples"], ["nullable"], ["readOnly"], ["writeOnly"],
    ["minLength"], ["maxLength"], ["minimum"], ["maximum"], ["pattern"]]

/-- The slots of a schema. -/
def Schema.slots (s : Schema) : List (Option Json) :=
  [optionalSlot .text s.type, optionalSlot .text s.format, optionalSlot .text s.title,
    optionalSlot .text s.description, listSlot (membersToJson Fragment.toJson) s.properties,
    listSlot .texts s.required, optionalSlot Fragment.toJson s.items,
    optionalSlot .array s.enum, optionalSlot id s.default, optionalSlot id s.exampleValue,
    optionalSlot .array s.examples, optionalSlot .bool s.nullable, optionalSlot .bool s.readOnly,
    optionalSlot .bool s.writeOnly, optionalSlot .nat s.minLength, optionalSlot .nat s.maxLength,
    optionalSlot .number s.minimum, optionalSlot .number s.maximum, optionalSlot .text s.pattern]

/-- Fragments are written one by one. -/
theorem fragmentsToJson_eq_mapMembers (fragments : List (String × Fragment)) :
    fragmentsToJson fragments = mapMembers Fragment.toJson fragments := by
  induction fragments with
  | nil => rfl
  | cons entry rest ih =>
      obtain ⟨name, fragment⟩ := entry
      rw [fragmentsToJson, ih]
      rfl

theorem Schema.toJson_eq (s : Schema) :
    s.toJson = .object (slotMembers (writtenNames fieldNames) s.slots) := by
  have hproperties : (if s.properties.isEmpty then []
      else [("properties", Json.object (fragmentsToJson s.properties))]) =
        slotMember "properties" (listSlot (membersToJson Fragment.toJson) s.properties) := by
    rw [fragmentsToJson_eq_mapMembers]
    cases s.properties <;> rfl
  obtain ⟨type, format, title, description, properties, required, items, _, _, _, _, _, _, _, _, _,
    _, _, _⟩ := s
  dsimp only at hproperties
  rw [Schema.toJson.eq_def]
  dsimp only
  rw [hproperties]
  -- the elements are written by a match of their own
  cases items <;>
    simp only [optionalMember_eq, listMember_eq, slots, fieldNames, writtenNames, slotMembers,
      slotMember_none, slotMember_some, optionalSlot, Option.map_none, Option.map_some,
      List.map_cons, List.map_nil, List.headD_cons, List.append_assoc, List.append_nil,
      List.nil_append]

/-- No schema in place is read as a reference. -/
theorem Schema.result_readPointer (s : Schema) (setting : ReadSetting) (jumps : Nat) :
    (Fragment.readPointer (ofJson s.toJson)).result setting jumps = none := by
  have hnames : ∀ name ∈ writtenNames fieldNames,
      ([["$ref"]] : List FieldNames).findIdx? (fun names => names.contains name) = none := by
    decide
  -- every member is written under the name of a keyword
  have hmembers : ∀ names slots, ∀ member ∈ slotMembers names slots, member.1 ∈ names := by
    intro names slots
    induction slots generalizing names with
    | nil => cases names <;> exact List.forall_mem_nil _
    | cons slot rest ih =>
        cases names with
        | nil => exact List.forall_mem_nil _
        | cons name names =>
            rw [slotMembers, List.forall_mem_append]
            refine ⟨?_, fun member hmember => List.mem_cons_of_mem _ (ih names member hmember)⟩
            cases slot with
            | none => exact List.forall_mem_nil _
            | some value => simp [slotMember]
  rw [toJson_eq, Fragment.readPointer, result_recordOf_of_unknown fun member hmember =>
    hnames _ (hmembers _ _ member hmember)]
  obtain ⟨levels, nodes⟩ := setting
  cases levels <;> rfl

/-- A fragment is written as an object. -/
theorem Fragment.toJson_ne_null (f : Fragment) : f.toJson ≠ .null := by
  cases f with
  | ref pointer =>
      rw [Fragment.toJson]
      exact Json.noConfusion
  | inline schema =>
      rw [Fragment.toJson, Schema.toJson_eq]
      exact Json.noConfusion

/-- A schema is read back when the fragments in it are. -/
theorem Schema.readsBack {s : Schema} {fragment : Reader Fragment}
    (hkeywords : s.LawfulKeywords (· ≠ .null))
    (hitems : ∀ f ∈ s.items, ReadsBack Fragment.toJson fragment f)
    (hproperties : LawfulMap (ReadsBack Fragment.toJson fragment) s.properties) :
    ReadsBack Schema.toJson (Schema.readWith fragment) s := by
  have hnat : ∀ n : Nat, ReadsBack .nat readNat n ∧ Json.nat n ≠ .null := fun n =>
    ⟨reads_readNat n, Json.noConfusion⟩
  have hnumber : ∀ n : Number, ReadsBack .number readNumber n ∧ Json.number n ≠ .null := fun n =>
    ⟨reads_readNumber n, Json.noConfusion⟩
  rw [ReadsBack, toJson_eq, readWith]
  -- keyword by keyword, in the order in which they are read
  refine reads_recordOf (by decide) rfl fun depth hdepth => ?_
  simp only [slots, List.forall_mem_cons] at hdepth
  obtain ⟨type, format, title, description, properties, required, items, enum, default,
    exampleValue, examples, nullable, readOnly, writeOnly, minLength, maxLength, minimum, maximum,
    pattern, -⟩ := hdepth
  obtain ⟨⟩ := s
  exact (returns_maybe_text type).bind <| (returns_maybe_text format).bind <|
    (returns_maybe_text title).bind <| (returns_maybe_text description).bind <|
    (returns_listSlot (hproperties.readsBack fun _ h => h) properties).bind <|
    (returns_texts required).bind <|
    (returns_maybe (fun f hf => ⟨hitems f hf, f.toJson_ne_null⟩) items).bind <|
    (returns_maybe_jsonList hkeywords.enum enum).bind <|
    (returns_maybe_json hkeywords.default default).bind <|
    (returns_maybe_json hkeywords.exampleValue exampleValue).bind <|
    (returns_maybe_jsonList hkeywords.examples examples).bind <|
    (returns_maybe_bool nullable).bind <| (returns_maybe_bool readOnly).bind <|
    (returns_maybe_bool writeOnly).bind <|
    (returns_maybe (fun n _ => hnat n) minLength).bind <|
    (returns_maybe (fun n _ => hnat n) maxLength).bind <|
    (returns_maybe (fun n _ => hnumber n) minimum).bind <|
    (returns_maybe (fun n _ => hnumber n) maximum).bind <|
    (returns_maybe_text pattern).bind (.pure _)

/-- A reference is read from its JSON value. -/
theorem Fragment.reads_readPointer (pointer : String) :
    Reads Fragment.readPointer (ofJson (Fragment.ref pointer).toJson) pointer := by
  rw [Fragment.toJson, Fragment.readPointer]
  show Reads _ (ofJson (.object (slotMembers (writtenNames [["$ref"]])
    [some (.text pointer)]))) pointer
  refine reads_recordOf (by decide) rfl fun depth hdepth => ?_
  rw [List.forall_mem_singleton] at hdepth
  exact returns_need (reads_readText pointer) hdepth

/-- What a slot of a schema holds is less deep than the schema. -/
theorem Schema.depth_lt_of_slot {schema : Schema} {value : Json} (h : some value ∈ schema.slots) :
    (ofJson value).depth < (ofJson schema.toJson).depth := by
  have hdepth : (ofJson value).depth ≤ depthOfMembers (ofMembers
      (slotMembers (writtenNames fieldNames) schema.slots)) := depth_le_of_slot rfl h
  rw [toJson_eq, ofJson, depth]
  omega

/-- The elements of an array are less deep than the schema of the array. -/
theorem Schema.depth_lt_of_items {schema : Schema} {f : Fragment} (h : f ∈ schema.items) :
    (ofJson f.toJson).depth < (ofJson schema.toJson).depth := by
  rw [Option.mem_def] at h
  exact depth_lt_of_slot (by simp [slots, optionalSlot, h])

/-- The properties of an object are less deep than the schema of the object. -/
theorem Schema.depth_lt_of_mem_properties {schema : Schema} {entry : String × Fragment}
    (h : entry ∈ schema.properties) :
    (ofJson entry.2.toJson).depth < (ofJson schema.toJson).depth := by
  have hne : schema.properties.isEmpty = false := by
    rw [List.isEmpty_eq_false_iff]
    exact List.ne_nil_of_mem h
  have hmap : (ofJson (membersToJson Fragment.toJson schema.properties)).depth <
      (ofJson schema.toJson).depth := depth_lt_of_slot (by simp [slots, listSlot, hne])
  have hmem : (entry.1, entry.2.toJson) ∈ mapMembers Fragment.toJson schema.properties :=
    List.mem_map_of_mem h
  have hentry := depth_le_of_mem_ofMembers hmem
  rw [membersToJson, ofJson, depth] at hmap
  dsimp only at hentry
  omega

/-- A lawful fragment is read back from its settled datum, given as many levels as that has. -/
theorem Fragment.Lawful.readsBack_settled {f : Fragment} (h : f.Lawful (· ≠ .null)) :
    ∀ levels, (ofJson f.toJson).depth < levels →
      ReadsBack Fragment.toJson (Fragment.readSettled levels) f := by
  induction h with
  | ref pointer =>
      intro levels hlevels
      obtain ⟨levels, rfl⟩ := Nat.exists_eq_succ_of_ne_zero (Nat.ne_zero_of_lt hlevels)
      have hread : Reads (fun d => do return Fragment.ref (← Fragment.readPointer d))
          (ofJson (Fragment.ref pointer).toJson) (.ref pointer) :=
        (Fragment.reads_readPointer pointer).bind (.pure _)
      exact Returns.orElse_left hread _
  | @inline schema keywords items nodup properties ihItems ihProperties =>
      intro levels hlevels
      obtain ⟨levels, rfl⟩ := Nat.exists_eq_succ_of_ne_zero (Nat.ne_zero_of_lt hlevels)
      rw [Fragment.toJson] at hlevels
      -- the fragments in the schema are less deep than the schema
      have hitems : ∀ f ∈ schema.items, ReadsBack Fragment.toJson (readSettled levels) f := by
        intro f hf
        have hdepth := Schema.depth_lt_of_items hf
        exact ihItems f hf levels (by omega)
      have hproperties :
          LawfulMap (ReadsBack Fragment.toJson (readSettled levels)) schema.properties := by
        refine ⟨nodup, fun entry hentry => ?_⟩
        have hdepth := Schema.depth_lt_of_mem_properties hentry
        exact ihProperties entry hentry levels (by omega)
      have hschema := Schema.readsBack keywords hitems hproperties
      have hread : Reads
          (fun d => do return Fragment.inline (← Schema.readWith (readSettled levels) d))
          (ofJson schema.toJson) (.inline schema) := hschema.bind (.pure _)
      -- the attempt to read a reference fails before the schema is read
      have hfails : ∀ setting jumps, (Fragment.readPointer (ofJson schema.toJson) >>= fun pointer =>
          pure (Fragment.ref pointer)).result setting jumps = none := by
        intro setting jumps
        rw [Read.result_bind, schema.result_readPointer]
        rfl
      have hjson : (Fragment.inline schema).toJson = schema.toJson := by rw [Fragment.toJson]
      rw [ReadsBack, hjson]
      exact Returns.orElse_right hfails hread

/-- A lawful fragment is read back. -/
theorem Fragment.Lawful.readsBack {f : Fragment} (h : f.Lawful (· ≠ .null)) :
    ReadsBack Fragment.toJson Fragment.read f := by
  have hread : Reads (fun d => Fragment.readSettled (d.depth + 1) d) (ofJson f.toJson) f :=
    @reads_atOwnDepth _ Fragment.readSettled _ _ h.readsBack_settled
  exact reads_settled hread.read?_eq

/-- A fragment that may not be there is read back. -/
theorem LawfulOption.returns_maybe {fragment? : Option Fragment}
    (h : LawfulOption (· ≠ .null) fragment?) {depth : Nat}
    (hdepth : ∀ json ∈ optionalSlot Fragment.toJson fragment?, (ofJson json).depth < depth) :
    Returns depth (maybe Fragment.read ((optionalSlot Fragment.toJson fragment?).map ofJson))
      fragment? :=
  Datum.returns_maybe (fun f hf => ⟨(h f hf).readsBack, f.toJson_ne_null⟩) hdepth

/-! ## Parts of operations -/

theorem Header.toJson_eq (h : Header) : h.toJson =
    .object (slotMembers (writtenNames [["description"], ["schema"]])
      [optionalSlot .text h.description, optionalSlot Fragment.toJson h.schema]) := by
  simp [Header.toJson, optionalMember_eq, slotMembers, writtenNames]

/-- A lawful header is read back. -/
theorem Header.Lawful.readsBack {header : Header} (h : header.Lawful (· ≠ .null)) :
    ReadsBack Header.toJson Header.read header := by
  rw [ReadsBack, toJson_eq, Header.read]
  refine reads_recordOf (by decide) rfl fun depth hdepth => ?_
  simp only [List.forall_mem_cons] at hdepth
  obtain ⟨description, schema, -⟩ := hdepth
  exact (returns_maybe_text description).bind <|
    (LawfulOption.returns_maybe h schema).bind (.pure _)

theorem MediaType.toJson_eq (m : MediaType) : m.toJson =
    .object (slotMembers (writtenNames [["schema"], ["example"], ["examples"]])
      [optionalSlot Fragment.toJson m.schema, optionalSlot id m.exampleValue,
        optionalSlot .object m.examples]) := by
  simp [MediaType.toJson, optionalMember_eq, slotMembers, writtenNames]

/-- A lawful content of a media type is read back. -/
theorem MediaType.Lawful.readsBack {m : MediaType} (h : m.Lawful (· ≠ .null)) :
    ReadsBack MediaType.toJson MediaType.read m := by
  rw [ReadsBack, toJson_eq, MediaType.read]
  refine reads_recordOf (by decide) rfl fun depth hdepth => ?_
  simp only [List.forall_mem_cons] at hdepth
  obtain ⟨schema, exampleValue, examples, -⟩ := hdepth
  exact (h.schema.returns_maybe schema).bind <|
    (returns_maybe_json h.exampleValue exampleValue).bind <|
    (returns_maybe_examples h.examples examples).bind (.pure _)

/-- A location is read back from its name. -/
theorem ParameterLocation.readsBack (l : ParameterLocation) :
    ReadsBack (fun l : ParameterLocation => .text l.name) ParameterLocation.readDatum l := by
  intro setting jumps hdepth
  show (found (ofName? l.name)).result setting jumps = some (l, jumps)
  rw [ofName?_name]
  rfl

theorem Parameter.toJson_eq (p : Parameter) : p.toJson =
    .object (slotMembers (writtenNames [["name"], ["in"], ["description"], ["required"],
        ["deprecated"], ["schema"], ["example"], ["examples"]])
      [some (.text p.name), some (.text p.location.name), optionalSlot .text p.description,
        some (.bool p.required), optionalSlot .bool p.deprecated,
        optionalSlot Fragment.toJson p.schema, optionalSlot id p.exampleValue,
        optionalSlot .object p.examples]) := by
  simp [Parameter.toJson, optionalMember_eq, slotMembers, writtenNames]

/-- A lawful parameter is read back. -/
theorem Parameter.Lawful.readsBack {p : Parameter} (h : p.Lawful (· ≠ .null)) :
    ReadsBack Parameter.toJson Parameter.read p := by
  rw [ReadsBack, toJson_eq, Parameter.read]
  refine reads_recordOf (by decide) rfl fun depth hdepth => ?_
  simp only [List.forall_mem_cons] at hdepth
  obtain ⟨name, location, description, required, deprecated, schema, exampleValue, examples, -⟩ :=
    hdepth
  exact (returns_need (reads_readText p.name) name).bind <|
    (returns_need p.location.readsBack location).bind <|
    (returns_maybe_text description).bind <|
    (returns_orElse (reads_readBool p.required) required).bind <|
    (returns_maybe_bool deprecated).bind <| (h.schema.returns_maybe schema).bind <|
    (returns_maybe_json h.exampleValue exampleValue).bind <|
    (returns_maybe_examples h.examples examples).bind (.pure _)

theorem RequestBody.toJson_eq (b : RequestBody) : b.toJson =
    .object (slotMembers (writtenNames [["description"], ["required"], ["content"]])
      [optionalSlot .text b.description, some (.bool b.required),
        some (membersToJson MediaType.toJson b.content)]) := by
  simp [RequestBody.toJson, optionalMember_eq, slotMembers, writtenNames]

/-- A lawful body of a request is read back. -/
theorem RequestBody.Lawful.readsBack {b : RequestBody} (h : b.Lawful (· ≠ .null)) :
    ReadsBack RequestBody.toJson RequestBody.read b := by
  rw [ReadsBack, toJson_eq, RequestBody.read]
  refine reads_recordOf (by decide) rfl fun depth hdepth => ?_
  simp only [List.forall_mem_cons] at hdepth
  obtain ⟨description, required, content, -⟩ := hdepth
  have hcontent := LawfulMap.readsBack h fun _ hm => MediaType.Lawful.readsBack hm
  exact (returns_maybe_text description).bind <|
    (returns_orElse (reads_readBool b.required) required).bind <|
    (returns_orElse hcontent content).bind (.pure _)

theorem Response.toJson_eq (r : Response) : r.toJson =
    .object (slotMembers (writtenNames [["description"], ["headers"], ["content"]])
      [some (.text r.description), listSlot (membersToJson Header.toJson) r.headers,
        listSlot (membersToJson MediaType.toJson) r.content]) := by
  simp [Response.toJson, namedMember_eq, slotMembers, writtenNames]

/-- A lawful response is read back. -/
theorem Response.Lawful.readsBack {r : Response} (h : r.Lawful (· ≠ .null)) :
    ReadsBack Response.toJson Response.read r := by
  rw [ReadsBack, toJson_eq, Response.read]
  refine reads_recordOf (by decide) rfl fun depth hdepth => ?_
  simp only [List.forall_mem_cons] at hdepth
  obtain ⟨description, headers, content, -⟩ := hdepth
  have hheaders := h.headers.readsBack fun _ hheader => Header.Lawful.readsBack hheader
  have hcontent := h.content.readsBack fun _ hm => MediaType.Lawful.readsBack hm
  exact (returns_orElse (reads_readText r.description) description).bind <|
    (returns_listSlot hheaders headers).bind <| (returns_listSlot hcontent content).bind (.pure _)

/-- A requirement that names no scheme twice is read back. -/
theorem SecurityRequirement.Lawful.readsBack {requirement : SecurityRequirement}
    (h : requirement.Lawful) :
    ReadsBack SecurityRequirement.toJson SecurityRequirement.read requirement :=
  reads_membersOf h fun entry _ => readsBack_texts entry.2

/-- Alternative requirements are read back. -/
theorem readsBack_requirements {requirements : List SecurityRequirement}
    (h : ∀ requirement ∈ requirements, requirement.Lawful) :
    ReadsBack requirementsToJson (listOf SecurityRequirement.read) requirements :=
  reads_listOf fun requirement hrequirement => (h requirement hrequirement).readsBack

theorem Operation.toJson_eq (o : Operation) : o.toJson =
    .object (slotMembers (writtenNames [["tags"], ["summary"], ["description"], ["operationId"],
        ["parameters"], ["requestBody"], ["responses"], ["deprecated"], ["security"]])
      [listSlot .texts o.tags, optionalSlot .text o.summary, optionalSlot .text o.description,
        optionalSlot .text o.operationId,
        listSlot (fun ps => .array (ps.map Parameter.toJson)) o.parameters,
        optionalSlot RequestBody.toJson o.requestBody,
        some (membersToJson Response.toJson o.responses), optionalSlot .bool o.deprecated,
        optionalSlot requirementsToJson o.security]) := by
  simp [Operation.toJson, optionalMember_eq, listMember_eq, slotMembers, writtenNames]

/-- A lawful operation is read back. -/
theorem Operation.Lawful.readsBack {o : Operation} (h : o.Lawful (· ≠ .null)) :
    ReadsBack Operation.toJson Operation.read o := by
  rw [ReadsBack, toJson_eq, Operation.read]
  refine reads_recordOf (by decide) rfl fun depth hdepth => ?_
  simp only [List.forall_mem_cons] at hdepth
  obtain ⟨tags, summary, description, operationId, parameters, requestBody, responses, deprecated,
    security, -⟩ := hdepth
  have hparameters : ReadsBack (fun ps => .array (ps.map Parameter.toJson))
      (listOf Parameter.read) o.parameters :=
    reads_listOf fun p hp => (h.parameters p hp).readsBack
  have hbody : ∀ body ∈ o.requestBody,
      ReadsBack RequestBody.toJson RequestBody.read body ∧ body.toJson ≠ .null :=
    fun body hbody => ⟨RequestBody.Lawful.readsBack (h.requestBody body hbody), Json.noConfusion⟩
  have hresponses := h.responses.readsBack fun _ hr => Response.Lawful.readsBack hr
  have hsecurity : ∀ requirements ∈ o.security,
      ReadsBack requirementsToJson (listOf SecurityRequirement.read) requirements ∧
        requirementsToJson requirements ≠ .null :=
    fun requirements hmem => ⟨readsBack_requirements (h.security requirements hmem),
      Json.noConfusion⟩
  exact (returns_texts tags).bind <| (returns_maybe_text summary).bind <|
    (returns_maybe_text description).bind <| (returns_maybe_text operationId).bind <|
    (returns_listSlot hparameters parameters).bind <| (returns_maybe hbody requestBody).bind <|
    (returns_orElse hresponses responses).bind <| (returns_maybe_bool deprecated).bind <|
    (returns_maybe hsecurity security).bind (.pure _)

/-! ## Parts of documents -/

theorem Contact.toJson_eq (c : Contact) : c.toJson =
    .object (slotMembers (writtenNames [["name"], ["email"], ["url"]])
      [optionalSlot .text c.name, optionalSlot .text c.email, optionalSlot .text c.url]) := by
  simp [Contact.toJson, optionalMember_eq, slotMembers, writtenNames]

/-- A contact is read back. -/
theorem Contact.readsBack (c : Contact) : ReadsBack Contact.toJson Contact.read c := by
  rw [ReadsBack, toJson_eq, Contact.read]
  refine reads_recordOf (by decide) rfl fun depth hdepth => ?_
  simp only [List.forall_mem_cons] at hdepth
  obtain ⟨name, email, url, -⟩ := hdepth
  exact (returns_maybe_text name).bind <| (returns_maybe_text email).bind <|
    (returns_maybe_text url).bind (.pure _)

theorem Info.toJson_eq (i : Info) : i.toJson =
    .object (slotMembers (writtenNames [["title"], ["version"], ["description"], ["contact"]])
      [some (.text i.title), some (.text i.version), optionalSlot .text i.description,
        optionalSlot Contact.toJson i.contact]) := by
  simp [Info.toJson, optionalMember_eq, slotMembers, writtenNames]

/-- What an API is is read back. -/
theorem Info.readsBack (i : Info) : ReadsBack Info.toJson Info.read i := by
  rw [ReadsBack, toJson_eq, Info.read]
  refine reads_recordOf (by decide) rfl fun depth hdepth => ?_
  simp only [List.forall_mem_cons] at hdepth
  obtain ⟨title, version, description, contact, -⟩ := hdepth
  have hcontact : ∀ c ∈ i.contact, ReadsBack Contact.toJson Contact.read c ∧ c.toJson ≠ .null :=
    fun c _ => ⟨c.readsBack, Json.noConfusion⟩
  exact (returns_orElse (reads_readText i.title) title).bind <|
    (returns_orElse (reads_readText i.version) version).bind <|
    (returns_maybe_text description).bind <| (returns_maybe hcontact contact).bind (.pure _)

theorem Server.toJson_eq (s : Server) : s.toJson =
    .object (slotMembers (writtenNames [["url"], ["description"]])
      [some (.text s.url), optionalSlot .text s.description]) := by
  simp [Server.toJson, optionalMember_eq, slotMembers, writtenNames]

/-- A server is read back. -/
theorem Server.readsBack (s : Server) : ReadsBack Server.toJson Server.read s := by
  rw [ReadsBack, toJson_eq, Server.read]
  refine reads_recordOf (by decide) rfl fun depth hdepth => ?_
  simp only [List.forall_mem_cons] at hdepth
  obtain ⟨url, description, -⟩ := hdepth
  exact (returns_need (reads_readText s.url) url).bind <|
    (returns_maybe_text description).bind (.pure _)

theorem ExternalDocs.toJson_eq (d : ExternalDocs) : d.toJson =
    .object (slotMembers (writtenNames [["url"], ["description"]])
      [some (.text d.url), optionalSlot .text d.description]) := by
  simp [ExternalDocs.toJson, optionalMember_eq, slotMembers, writtenNames]

/-- A link to documentation elsewhere is read back. -/
theorem ExternalDocs.readsBack (d : ExternalDocs) :
    ReadsBack ExternalDocs.toJson ExternalDocs.read d := by
  rw [ReadsBack, toJson_eq, ExternalDocs.read]
  refine reads_recordOf (by decide) rfl fun depth hdepth => ?_
  simp only [List.forall_mem_cons] at hdepth
  obtain ⟨url, description, -⟩ := hdepth
  exact (returns_need (reads_readText d.url) url).bind <|
    (returns_maybe_text description).bind (.pure _)

theorem Tag.toJson_eq (t : Tag) : t.toJson =
    .object (slotMembers (writtenNames [["name"], ["description"],
        ["externalDocs", "external_docs"]])
      [some (.text t.name), optionalSlot .text t.description,
        optionalSlot ExternalDocs.toJson t.externalDocs]) := by
  simp [Tag.toJson, optionalMember_eq, slotMembers, writtenNames]

/-- A tag is read back. -/
theorem Tag.readsBack (t : Tag) : ReadsBack Tag.toJson Tag.read t := by
  rw [ReadsBack, toJson_eq, Tag.read]
  refine reads_recordOf (by decide) rfl fun depth hdepth => ?_
  simp only [List.forall_mem_cons] at hdepth
  obtain ⟨name, description, externalDocs, -⟩ := hdepth
  have hdocs : ∀ d ∈ t.externalDocs,
      ReadsBack ExternalDocs.toJson ExternalDocs.read d ∧ d.toJson ≠ .null :=
    fun d _ => ⟨d.readsBack, Json.noConfusion⟩
  exact (returns_need (reads_readText t.name) name).bind <|
    (returns_maybe_text description).bind <| (returns_maybe hdocs externalDocs).bind (.pure _)

theorem SecurityScheme.toJson_eq (s : SecurityScheme) : s.toJson =
    .object (slotMembers (writtenNames [["type"], ["description"], ["name"], ["in", "location"],
        ["scheme"], ["bearerFormat", "bearer_format"], ["flows"],
        ["openIdConnectUrl", "open_id_connect_url"]])
      [optionalSlot .text s.type, optionalSlot .text s.description, optionalSlot .text s.name,
        optionalSlot .text s.location, optionalSlot .text s.scheme,
        optionalSlot .text s.bearerFormat, optionalSlot .object s.flows,
        optionalSlot .text s.openIdConnectUrl]) := by
  simp [SecurityScheme.toJson, optionalMember_eq, slotMembers, writtenNames]

/-- A lawful security scheme is read back. -/
theorem SecurityScheme.Lawful.readsBack {s : SecurityScheme} (h : s.Lawful) :
    ReadsBack SecurityScheme.toJson SecurityScheme.read s := by
  rw [ReadsBack, toJson_eq, SecurityScheme.read]
  refine reads_recordOf (by decide) rfl fun depth hdepth => ?_
  simp only [List.forall_mem_cons] at hdepth
  obtain ⟨type, description, name, location, scheme, bearerFormat, flows, url, -⟩ := hdepth
  exact (returns_maybe_text type).bind <| (returns_maybe_text description).bind <|
    (returns_maybe_text name).bind <| (returns_maybe_text location).bind <|
    (returns_maybe_text scheme).bind <| (returns_maybe_text bearerFormat).bind <|
    (returns_maybe_examples h flows).bind <| (returns_maybe_text url).bind (.pure _)

theorem Components.toJson_eq (c : Components) : c.toJson =
    .object (slotMembers (writtenNames [["schemas"], ["securitySchemes"], ["parameters"],
        ["responses"]])
      [some (membersToJson Fragment.toJson c.schemas),
        listSlot (membersToJson SecurityScheme.toJson) c.securitySchemes,
        listSlot (membersToJson Parameter.toJson) c.parameters,
        listSlot (membersToJson Response.toJson) c.responses]) := by
  simp [Components.toJson, namedMember_eq, slotMembers, writtenNames]

/-- Lawful parts that operations share are read back. -/
theorem Components.Lawful.readsBack {c : Components} (h : c.Lawful (· ≠ .null)) :
    ReadsBack Components.toJson Components.read c := by
  rw [ReadsBack, toJson_eq, Components.read]
  refine reads_recordOf (by decide) rfl fun depth hdepth => ?_
  simp only [List.forall_mem_cons] at hdepth
  obtain ⟨schemas, securitySchemes, parameters, responses, -⟩ := hdepth
  have hschemas := h.schemas.readsBack fun _ hf => Fragment.Lawful.readsBack hf
  have hschemes := h.securitySchemes.readsBack fun _ hs => SecurityScheme.Lawful.readsBack hs
  have hparameters := h.parameters.readsBack fun _ hp => Parameter.Lawful.readsBack hp
  have hresponses := h.responses.readsBack fun _ hr => Response.Lawful.readsBack hr
  exact (returns_orElse hschemas schemas).bind <|
    (returns_listSlot hschemes securitySchemes).bind <|
    (returns_listSlot hparameters parameters).bind <|
    (returns_listSlot hresponses responses).bind (.pure _)

theorem Document.toJson_eq (d : Document) : d.toJson =
    .object (slotMembers (writtenNames [["openapi"], ["info"], ["servers"], ["paths"],
        ["components"], ["security"], ["tags"]])
      [some (.text d.version), some d.info.toJson,
        listSlot (fun ss => .array (ss.map Server.toJson)) d.servers,
        some (membersToJson (membersToJson Operation.toJson) d.paths), some d.components.toJson,
        listSlot requirementsToJson d.security,
        listSlot (fun ts => .array (ts.map Tag.toJson)) d.tags]) := by
  simp [Document.toJson, listMember_eq, slotMembers, writtenNames]

/-- A lawful document without null among its optional values is read back. -/
theorem Document.Lawful.readsBack {d : Document} (h : d.Lawful (· ≠ .null)) :
    ReadsBack Document.toJson Document.read d := by
  rw [ReadsBack, toJson_eq, Document.read]
  refine reads_recordOf (by decide) rfl fun depth hdepth => ?_
  simp only [List.forall_mem_cons] at hdepth
  obtain ⟨version, info, servers, paths, components, security, tags, -⟩ := hdepth
  have hservers : ReadsBack (fun ss => .array (ss.map Server.toJson)) (listOf Server.read)
      d.servers := reads_listOf fun s _ => s.readsBack
  have hpaths := h.paths.readsBack fun _ hitem =>
    LawfulMap.readsBack hitem fun _ ho => Operation.Lawful.readsBack ho
  have hcomponents := h.components.readsBack
  have hsecurity := readsBack_requirements h.security
  have htags : ReadsBack (fun ts => .array (ts.map Tag.toJson)) (listOf Tag.read) d.tags :=
    reads_listOf fun t _ => t.readsBack
  exact (returns_need (reads_readText d.version) version).bind <|
    (returns_need d.info.readsBack info).bind <| (returns_listSlot hservers servers).bind <|
    (returns_orElse hpaths paths).bind <| (returns_orElse hcomponents components).bind <|
    (returns_listSlot hsecurity security).bind <| (returns_listSlot htags tags).bind (.pure _)

end AnnotatedApi
