import AnnotatedApi.Annotation.Extraction
import AnnotatedApi.Proofs.Annotation.Given

/-! # Declarations of annotations are lawful

A declaration is lawful when the JSON values in it are: they have no repeated names, and defaults
and examples are not null. It is built argument by argument, so the law of each kind says that one
more argument keeps it. -/

namespace AnnotatedApi

/-! ## Schema keywords -/

/-- Lawful keywords of a declaration. -/
structure SchemaAttrs.Lawful (attrs : SchemaAttrs) : Prop where
  enum : LawfulValues attrs.enum
  default : LawfulValue (· ≠ .null) attrs.default
  exampleValue : LawfulValue (· ≠ .null) attrs.exampleValue
  examples : LawfulValues attrs.examples

/-- No keywords, which are lawful. -/
theorem SchemaAttrs.Lawful.empty : ({} : SchemaAttrs).Lawful :=
  ⟨forall_mem_none, forall_mem_none, forall_mem_none, forall_mem_none⟩

/-- One more keyword. -/
theorem SchemaAttrs.Lawful.set? {attrs : SchemaAttrs} (h : attrs.Lawful) (arg : Arg) :
    Gives (fun attrs? => ∀ attrs ∈ attrs?, SchemaAttrs.Lawful attrs) (attrs.set? arg) := by
  have hkept : ∀ {attrs' : SchemaAttrs}, SchemaAttrs.Lawful attrs' →
      Gives (fun attrs? => ∀ attrs ∈ attrs?, SchemaAttrs.Lawful attrs)
        (.ok (some attrs') : Except AnnotationError (Option SchemaAttrs)) := by
    intro attrs' hattrs
    refine .ok ?_
    rintro _ ⟨⟩
    exact hattrs
  rw [SchemaAttrs.set?]
  split
  -- most keywords set none of the parts that hold JSON values
  all_goals try
    exact Gives.any.bind fun _ _ => hkept ⟨h.enum, h.default, h.exampleValue, h.examples⟩
  · exact hkept ⟨h.enum, arg.lawfulValue_asJson, h.exampleValue, h.examples⟩
  · exact hkept ⟨h.enum, h.default, arg.lawfulValue_asJson, h.examples⟩
  · exact arg.gives_asJsonList.bind fun _ hvalues =>
      hkept ⟨h.enum, h.default, h.exampleValue, hvalues⟩
  · exact arg.gives_asJsonList.bind fun _ hvalues =>
      hkept ⟨hvalues, h.default, h.exampleValue, h.examples⟩
  · exact .ok fun attrs hattrs => absurd hattrs (Option.not_mem_none attrs)

/-! ## Properties and items -/

mutual

/-- Lawful declared elements of an array. -/
inductive ItemsDecl.Lawful : ItemsDecl → Prop
  | mk {attrs : SchemaAttrs} {items : Option ItemsDecl} {properties : List PropertyDecl}
      (hattrs : attrs.Lawful) (hitems : ∀ decl ∈ items, ItemsDecl.Lawful decl)
      (hproperties : ∀ decl ∈ properties, PropertyDecl.Lawful decl) :
      ItemsDecl.Lawful (.mk attrs items properties)

/-- A lawful declared property. -/
inductive PropertyDecl.Lawful : PropertyDecl → Prop
  | mk {name : Option String} {attrs : SchemaAttrs} {required : Option Bool}
      {items : Option ItemsDecl} {properties : List PropertyDecl}
      (hattrs : attrs.Lawful) (hitems : ∀ decl ∈ items, ItemsDecl.Lawful decl)
      (hproperties : ∀ decl ∈ properties, PropertyDecl.Lawful decl) :
      PropertyDecl.Lawful (.mk name attrs required items properties)

end

/-- A lawful property is lawful under another name. -/
theorem PropertyDecl.Lawful.rename {decl : PropertyDecl} (h : decl.Lawful) (name : Option String) :
    (decl.rename name).Lawful := by
  cases h with
  | mk hattrs hitems hproperties => exact .mk hattrs hitems hproperties

/-- A property that is named by its entry. -/
theorem PropertyDecl.Lawful.nameEntry {decl : PropertyDecl} (h : decl.Lawful) (entry : String) :
    Gives PropertyDecl.Lawful (nameEntry entry decl) := by
  rw [AnnotatedApi.nameEntry]
  split
  · exact .ok (h.rename _)
  · split
    · exact .ok h
    · exact .error

mutual

/-- Declared elements after more arguments. -/
theorem gives_readItemsFrom {attrs : SchemaAttrs} {items : Option ItemsDecl}
    {properties : List PropertyDecl} (hattrs : attrs.Lawful) (hitems : ∀ d ∈ items, d.Lawful)
    (hproperties : ∀ d ∈ properties, d.Lawful) (args : List (String × ArgValue)) :
    Gives ItemsDecl.Lawful (readItemsFrom attrs items properties args) := by
  cases args with
  | nil =>
      rw [readItemsFrom]
      exact .ok (.mk hattrs hitems hproperties)
  | cons arg rest =>
      obtain ⟨name, value⟩ := arg
      rw [readItemsFrom.eq_def]
      -- an argument is a keyword or else one of the nested parts
      refine (hattrs.set? (name, value)).bind fun attrs? hattrs? => ?_
      split
      · next attrs' => exact gives_readItemsFrom (hattrs? attrs' rfl) hitems hproperties rest
      · split
        · next args =>
          refine (gives_readItemsFrom .empty forall_mem_none (List.forall_mem_nil _)
            args).bind fun decl hdecl => ?_
          exact gives_readItemsFrom hattrs (forall_mem_some hdecl) hproperties rest
        · exact .error
        · next args =>
          refine (gives_readEntries args).bind fun more hmore => ?_
          exact gives_readItemsFrom hattrs hitems (List.forall_mem_append.mpr ⟨hproperties, hmore⟩)
            rest
        · exact .error
        · exact .error
termination_by sizeOf args

/-- A declared property after more arguments. -/
theorem gives_readPropertyFrom {own : Option String} {attrs : SchemaAttrs}
    {required : Option Bool} {items : Option ItemsDecl} {properties : List PropertyDecl}
    (hattrs : attrs.Lawful) (hitems : ∀ d ∈ items, d.Lawful)
    (hproperties : ∀ d ∈ properties, d.Lawful) (args : List (String × ArgValue)) :
    Gives PropertyDecl.Lawful (readPropertyFrom own attrs required items properties args) := by
  cases args with
  | nil =>
      rw [readPropertyFrom]
      exact .ok (.mk hattrs hitems hproperties)
  | cons arg rest =>
      obtain ⟨name, value⟩ := arg
      rw [readPropertyFrom.eq_def]
      refine (hattrs.set? (name, value)).bind fun attrs? hattrs? => ?_
      split
      · next attrs' => exact gives_readPropertyFrom (hattrs? attrs' rfl) hitems hproperties rest
      · split
        · exact Gives.any.bind fun _ _ => gives_readPropertyFrom hattrs hitems hproperties rest
        · exact Gives.any.bind fun _ _ => gives_readPropertyFrom hattrs hitems hproperties rest
        · exact Gives.any.bind fun _ _ => gives_readPropertyFrom hattrs hitems hproperties rest
        · next args =>
          refine (gives_readItemsFrom .empty forall_mem_none (List.forall_mem_nil _)
            args).bind fun decl hdecl => ?_
          exact gives_readPropertyFrom hattrs (forall_mem_some hdecl) hproperties rest
        · exact .error
        · next args =>
          refine (gives_readEntries args).bind fun more hmore => ?_
          exact gives_readPropertyFrom hattrs hitems
            (List.forall_mem_append.mpr ⟨hproperties, hmore⟩) rest
        · exact .error
        · exact .error
termination_by sizeOf args

/-- The entries of a list of properties. -/
theorem gives_readEntries (args : List (String × ArgValue)) :
    Gives (fun decls => ∀ decl ∈ decls, decl.Lawful) (readEntries args) := by
  cases args with
  | nil =>
      rw [readEntries]
      exact .ok (List.forall_mem_nil _)
  | cons arg rest =>
      obtain ⟨name, value⟩ := arg
      cases value with
      | list args =>
          rw [readEntries]
          refine (gives_readPropertyFrom .empty forall_mem_none (List.forall_mem_nil _)
            args).bind fun decl hdecl => ?_
          refine (hdecl.nameEntry name).bind fun decl hdecl => ?_
          refine (gives_readEntries rest).bind fun decls hdecls => ?_
          exact .ok (List.forall_mem_cons.mpr ⟨hdecl, hdecls⟩)
      | _ =>
          rw [readEntries.eq_def]
          exact .error
termination_by sizeOf args

end

/-- The properties that an argument lists. -/
theorem Arg.gives_asProperties (arg : Arg) :
    Gives (fun decls => ∀ decl ∈ decls, decl.Lawful) arg.asProperties :=
  Gives.any.bind fun args _ => gives_readEntries args

/-- The array elements that arguments spell. -/
theorem ItemsDecl.gives_ofArgs (args : List Arg) : Gives ItemsDecl.Lawful (ItemsDecl.ofArgs args) :=
  gives_readItemsFrom .empty forall_mem_none (List.forall_mem_nil _) args

/-- The property that arguments spell. -/
theorem PropertyDecl.gives_ofArgs (args : List Arg) :
    Gives PropertyDecl.Lawful (PropertyDecl.ofArgs args) :=
  gives_readPropertyFrom .empty forall_mem_none (List.forall_mem_nil _) args

/-- The array elements that an argument declares. -/
theorem Arg.gives_asItems (arg : Arg) : Gives ItemsDecl.Lawful arg.asItems :=
  Gives.any.bind fun args _ => ItemsDecl.gives_ofArgs args

/-- Arguments that keep a property of a declaration one by one keep it together. -/
theorem gives_applyArgs {P : α → Prop} {step : α → Arg → Except AnnotationError α} {start : α}
    (hstart : P start) (hstep : ∀ decl, P decl → ∀ arg, Gives P (step decl arg))
    (args : List Arg) : Gives P (applyArgs step start args) :=
  Gives.foldlM (fun decl hdecl arg _ => hstep decl hdecl arg) hstart

/-! ## Schemas -/

/-- A lawful declared schema. -/
structure SchemaDecl.Lawful (decl : SchemaDecl) : Prop where
  attrs : decl.attrs.Lawful
  items : ∀ items ∈ decl.items, items.Lawful
  properties : ∀ p ∈ decl.properties, p.Lawful

/-- The schema that says nothing is lawful. -/
theorem SchemaDecl.Lawful.empty : ({} : SchemaDecl).Lawful :=
  ⟨.empty, forall_mem_none, List.forall_mem_nil _⟩

/-- One more argument. -/
theorem SchemaDecl.Lawful.apply {decl : SchemaDecl} (h : decl.Lawful) (arg : Arg) :
    Gives SchemaDecl.Lawful (decl.apply arg) := by
  refine (h.attrs.set? arg).bind fun attrs? hattrs? => ?_
  split
  · next attrs => exact .ok ⟨hattrs? attrs rfl, h.items, h.properties⟩
  · split
    · exact Gives.any.bind fun _ _ => .ok ⟨h.attrs, h.items, h.properties⟩
    · exact Gives.any.bind fun _ _ => .ok ⟨h.attrs, h.items, h.properties⟩
    · exact arg.gives_asProperties.bind fun more hmore =>
        .ok ⟨h.attrs, h.items, List.forall_mem_append.mpr ⟨h.properties, hmore⟩⟩
    · exact arg.gives_asItems.bind fun items hitems =>
        .ok ⟨h.attrs, forall_mem_some hitems, h.properties⟩
    · exact .error

/-- The schema that arguments spell. -/
theorem SchemaDecl.gives_ofArgs (args : List Arg) :
    Gives SchemaDecl.Lawful (SchemaDecl.ofArgs args) :=
  gives_applyArgs .empty (fun _ h arg => h.apply arg) args

/-- The schema that an argument declares. -/
theorem Arg.gives_asSchema (arg : Arg) : Gives SchemaDecl.Lawful arg.asSchema := by
  rw [asSchema]
  split
  · exact SchemaDecl.gives_ofArgs _
  · exact Gives.any.bind fun _ _ => .ok ⟨⟨forall_mem_none, forall_mem_none, forall_mem_none,
      forall_mem_none⟩, forall_mem_none, List.forall_mem_nil _⟩

/-! ## Media types -/

/-- A lawful declared media type. -/
structure MediaTypeDecl.Lawful (decl : MediaTypeDecl) : Prop where
  schema : ∀ schema ∈ decl.schema, schema.Lawful
  exampleValue : LawfulValue (· ≠ .null) decl.exampleValue
  examples : LawfulExamples decl.examples

/-- Lawful parts of a media type given so far. -/
structure MediaTypeDecl.Draft.Lawful (draft : Draft) : Prop where
  schema : ∀ schema ∈ draft.schema, schema.Lawful
  exampleValue : LawfulValue (· ≠ .null) draft.exampleValue
  examples : LawfulExamples draft.examples

/-- One more argument. -/
theorem MediaTypeDecl.Draft.Lawful.apply {draft : Draft} (h : draft.Lawful) (arg : Arg) :
    Gives Draft.Lawful (MediaTypeDecl.apply draft arg) := by
  rw [MediaTypeDecl.apply]
  split
  · exact Gives.any.bind fun _ _ => .ok ⟨h.schema, h.exampleValue, h.examples⟩
  · exact Gives.any.bind fun _ _ => .ok ⟨h.schema, h.exampleValue, h.examples⟩
  · exact Gives.any.bind fun _ _ => .ok ⟨h.schema, h.exampleValue, h.examples⟩
  · exact arg.gives_asSchema.bind fun schema hschema =>
      .ok ⟨forall_mem_some hschema, h.exampleValue, h.examples⟩
  · exact .ok ⟨h.schema, arg.lawfulValue_asJson, h.examples⟩
  · exact arg.gives_asMembers.bind fun members hmembers =>
      .ok ⟨h.schema, h.exampleValue, hmembers⟩
  · exact .error

/-- The media type that arguments spell. -/
theorem MediaTypeDecl.gives_ofArgs (args : List Arg) :
    Gives MediaTypeDecl.Lawful (MediaTypeDecl.ofArgs args) := by
  have hdraft : Gives Draft.Lawful (applyArgs MediaTypeDecl.apply {} args) :=
    gives_applyArgs ⟨forall_mem_none, forall_mem_none, forall_mem_none⟩
      (fun _ h arg => h.apply arg) args
  refine hdraft.bind fun draft h => ?_
  split
  · exact .ok ⟨h.schema, h.exampleValue, h.examples⟩
  · exact .error

/-- The media types that an argument lists. -/
theorem Arg.gives_asMediaTypes (arg : Arg) :
    Gives (fun decls => ∀ decl ∈ decls, decl.Lawful) arg.asMediaTypes := by
  refine Gives.any.bind fun args _ => Gives.mapM fun entry _ => ?_
  split
  · exact Gives.any.bind fun args _ => MediaTypeDecl.gives_ofArgs args
  · exact .error

/-! ## Security and operations -/

/-- The security requirement that arguments spell. -/
theorem SecurityRequirement.gives_ofArgs (args : List Arg) :
    Gives SecurityRequirement.Lawful (SecurityRequirement.ofArgs args) := by
  have hempty : SecurityRequirement.Lawful [] := List.nodup_nil
  refine Gives.bind (P := SecurityRequirement.Lawful) ?_ fun requirement h => ?_
  · refine gives_applyArgs hempty (fun requirement h arg => ?_) args
    split
    · exact Gives.any.bind fun name _ => .ok (nodup_putMember h)
    · split
      · exact .ok (nodup_putMember h)
      · exact Gives.any.bind fun scopes _ => .ok (nodup_putMember h)
  · split
    · exact .error
    · exact .ok h

/-- Lawful declared requirements of an operation. -/
def OperationDecl.Lawful (decl : OperationDecl) : Prop :=
  ∀ requirement ∈ decl.security.getD [], SecurityRequirement.Lawful requirement

/-- One more argument. -/
theorem OperationDecl.Lawful.apply {decl : OperationDecl} (h : decl.Lawful) (arg : Arg) :
    Gives OperationDecl.Lawful (decl.apply arg) := by
  rw [OperationDecl.apply]
  split
  -- only the last keyword adds a requirement
  all_goals try exact Gives.any.bind fun _ _ => .ok h
  · refine Gives.any.bind fun args _ => ?_
    refine (SecurityRequirement.gives_ofArgs args).bind fun requirement hrequirement => .ok ?_
    exact List.forall_mem_append.mpr ⟨h, List.forall_mem_singleton.mpr hrequirement⟩
  · exact .error

/-- The operation that arguments spell. -/
theorem OperationDecl.gives_ofArgs (args : List Arg) :
    Gives OperationDecl.Lawful (OperationDecl.ofArgs args) :=
  gives_applyArgs (List.forall_mem_nil _) (fun _ h arg => h.apply arg) args

/-! ## Parameters -/

/-- A lawful declared parameter. -/
structure ParameterDecl.Lawful (decl : ParameterDecl) : Prop where
  schema : ∀ schema ∈ decl.schema, schema.Lawful
  exampleValue : LawfulValue (· ≠ .null) decl.exampleValue
  examples : LawfulExamples decl.examples

/-- Lawful parts of a parameter given so far. -/
structure ParameterDecl.Draft.Lawful (draft : Draft) : Prop where
  schema : ∀ schema ∈ draft.schema, schema.Lawful
  exampleValue : LawfulValue (· ≠ .null) draft.exampleValue
  examples : LawfulExamples draft.examples
  shortcuts : draft.shortcuts.Lawful

namespace ParameterDecl.Draft.Lawful

variable {draft : Draft}

/-- One more argument. -/
theorem apply (h : draft.Lawful) (arg : Arg) :
    Gives Draft.Lawful (ParameterDecl.apply draft arg) := by
  rw [ParameterDecl.apply]
  split
  -- names, places, texts and flags hold no JSON values
  all_goals try
    exact Gives.any.bind fun _ _ => .ok ⟨h.schema, h.exampleValue, h.examples, h.shortcuts⟩
  · exact arg.gives_asSchema.bind fun schema hschema =>
      .ok ⟨forall_mem_some hschema, h.exampleValue, h.examples, h.shortcuts⟩
  · exact .ok ⟨h.schema, arg.lawfulValue_asJson, h.examples, h.shortcuts⟩
  · exact arg.gives_asMembers.bind fun members hmembers =>
      .ok ⟨h.schema, h.exampleValue, hmembers, h.shortcuts⟩
  · split
    · refine (h.shortcuts.set? arg).bind fun shortcuts? hshortcuts? => ?_
      split
      · next shortcuts =>
        exact .ok ⟨h.schema, h.exampleValue, h.examples, hshortcuts? shortcuts rfl⟩
      · exact .ok h
    · exact .error

/-- The schema of a parameter with the keywords that are given directly. -/
theorem finalSchema (h : draft.Lawful) : ∀ schema ∈ draft.finalSchema, schema.Lawful := by
  rw [Draft.finalSchema]
  split
  · have hschema : (draft.schema.getD {}).Lawful := by
      cases hdraft : draft.schema with
      | none => exact .empty
      | some schema => exact h.schema schema hdraft
    refine forall_mem_some ⟨⟨?_, ?_, hschema.attrs.exampleValue, hschema.attrs.examples⟩,
      hschema.items, hschema.properties⟩
    · exact forall_mem_orElse hschema.attrs.enum h.shortcuts.enum
    · exact forall_mem_orElse hschema.attrs.default h.shortcuts.default
  · exact h.schema

end ParameterDecl.Draft.Lawful

/-- The parameter that arguments spell. -/
theorem ParameterDecl.gives_ofArgs (args : List Arg) :
    Gives ParameterDecl.Lawful (ParameterDecl.ofArgs args) := by
  have hdraft : Gives Draft.Lawful (applyArgs ParameterDecl.apply {} args) :=
    gives_applyArgs ⟨forall_mem_none, forall_mem_none, forall_mem_none, .empty⟩
      (fun _ h arg => h.apply arg) args
  refine hdraft.bind fun draft h => ?_
  split
  · exact .error
  · exact .error
  · exact .ok ⟨h.finalSchema, h.exampleValue, h.examples⟩

/-! ## Request bodies and responses -/

/-- A lawful declared request body. -/
structure RequestBodyDecl.Lawful (decl : RequestBodyDecl) : Prop where
  content : ∀ m ∈ decl.content, m.Lawful
  properties : ∀ p ∈ decl.properties, p.Lawful

/-- One more argument. -/
theorem RequestBodyDecl.Lawful.apply {decl : RequestBodyDecl} (h : decl.Lawful) (arg : Arg) :
    Gives RequestBodyDecl.Lawful (decl.apply arg) := by
  rw [RequestBodyDecl.apply]
  split
  all_goals try exact Gives.any.bind fun _ _ => .ok ⟨h.content, h.properties⟩
  · exact arg.gives_asMediaTypes.bind fun more hmore =>
      .ok ⟨List.forall_mem_append.mpr ⟨h.content, hmore⟩, h.properties⟩
  · exact arg.gives_asProperties.bind fun more hmore =>
      .ok ⟨h.content, List.forall_mem_append.mpr ⟨h.properties, hmore⟩⟩
  · exact .error

/-- The request body that arguments spell. -/
theorem RequestBodyDecl.gives_ofArgs (args : List Arg) :
    Gives RequestBodyDecl.Lawful (RequestBodyDecl.ofArgs args) :=
  gives_applyArgs ⟨List.forall_mem_nil _, List.forall_mem_nil _⟩ (fun _ h arg => h.apply arg) args

/-- A lawful declared response. -/
structure ResponseDecl.Lawful (decl : ResponseDecl) : Prop where
  content : ∀ m ∈ decl.content, m.Lawful
  properties : ∀ p ∈ decl.properties, p.Lawful
  headers : (memberNames decl.headers).Nodup

/-- The headers that an argument adds. -/
theorem ResponseDecl.gives_readHeaders {headers : List (String × String)}
    (h : (memberNames headers).Nodup) (arg : Arg) :
    Gives (fun headers => (memberNames headers).Nodup) (ResponseDecl.readHeaders headers arg) := by
  refine Gives.any.bind fun args _ => Gives.foldlM (fun headers h header _ => ?_) h
  exact Gives.any.bind fun description _ => .ok (nodup_putMember h)

/-- One more argument. -/
theorem ResponseDecl.Lawful.apply {decl : ResponseDecl} (h : decl.Lawful) (arg : Arg) :
    Gives ResponseDecl.Lawful (decl.apply arg) := by
  rw [ResponseDecl.apply]
  split
  all_goals try exact Gives.any.bind fun _ _ => .ok ⟨h.content, h.properties, h.headers⟩
  · exact arg.gives_asMediaTypes.bind fun more hmore =>
      .ok ⟨List.forall_mem_append.mpr ⟨h.content, hmore⟩, h.properties, h.headers⟩
  · exact arg.gives_asProperties.bind fun more hmore =>
      .ok ⟨h.content, List.forall_mem_append.mpr ⟨h.properties, hmore⟩, h.headers⟩
  · exact (ResponseDecl.gives_readHeaders h.headers arg).bind fun headers hheaders =>
      .ok ⟨h.content, h.properties, hheaders⟩
  · exact .error

/-- The response that arguments spell. -/
theorem ResponseDecl.gives_ofArgs (args : List Arg) :
    Gives ResponseDecl.Lawful (ResponseDecl.ofArgs args) :=
  gives_applyArgs ⟨List.forall_mem_nil _, List.forall_mem_nil _, List.nodup_nil⟩
    (fun _ h arg => h.apply arg) args

/-! ## Annotations -/

/-- An annotation whose declaration is lawful. -/
def Annotation.Lawful : Annotation → Prop
  | .schema decl => decl.Lawful
  | .property decl => decl.Lawful
  | .items decl => decl.Lawful
  | .operation decl => decl.Lawful
  | .parameter decl => decl.Lawful
  | .requestBody decl => decl.Lawful
  | .response decl => decl.Lawful
  | .mediaType decl => decl.Lawful
  | .security requirement => SecurityRequirement.Lawful requirement
  | .apiGroup _ => True
  | .hidden => True
  | .relationship _ => True

/-- The annotation that a name and arguments spell. -/
theorem Annotation.gives_ofArgs (name : String) (args : List Arg) :
    Gives Annotation.Lawful (ofArgs name args) := by
  unfold ofArgs
  split
  · exact (SchemaDecl.gives_ofArgs args).map fun _ h => h
  · exact (PropertyDecl.gives_ofArgs args).map fun _ h => h
  · exact (ItemsDecl.gives_ofArgs args).map fun _ h => h
  · exact (OperationDecl.gives_ofArgs args).map fun _ h => h
  · exact (ParameterDecl.gives_ofArgs args).map fun _ h => h
  · exact (RequestBodyDecl.gives_ofArgs args).map fun _ h => h
  · exact (ResponseDecl.gives_ofArgs args).map fun _ h => h
  · exact (MediaTypeDecl.gives_ofArgs args).map fun _ h => h
  · exact Gives.any.map fun _ _ => trivial
  · exact Gives.any.map fun _ _ => trivial
  · exact (SecurityRequirement.gives_ofArgs args).map fun _ h => h
  · split
    · exact .ok trivial
    · exact .error
  · exact Gives.any.map fun _ _ => trivial
  · exact .error

namespace Annotation

/-- The annotation is spelled by an attribute. -/
def IsExtracted (found : Annotation) : Prop :=
  ∃ a, ofAttribute? a = some (.ok found)

/-- An attribute spells the annotation of its name and its arguments. -/
theorem isExtracted_of_args (a : Source.Attribute) (name : String) (args : List Arg)
    {found : Annotation} (hname : a.vocabularyName? = some name) (hargs : a.args = .ok args)
    (h : ofArgs name args = .ok found) : found.IsExtracted := by
  refine ⟨a, ?_⟩
  rw [ofAttribute?, hname, Option.map_some, hargs]
  exact congrArg some h

/-- The declaration of an annotation that an attribute spells is lawful. -/
theorem IsExtracted.lawful {found : Annotation} (h : found.IsExtracted) : found.Lawful := by
  obtain ⟨a, ha⟩ := h
  obtain ⟨name, -, hargs⟩ := Option.map_eq_some_iff.mp ha
  have hgives : Gives Annotation.Lawful (a.args >>= ofArgs name) :=
    Gives.any.bind fun args _ => gives_ofArgs name args
  exact hgives found hargs

end Annotation

namespace Annotations

/-- Annotations whose declarations are lawful. -/
def Lawful (list : Annotations) : Prop :=
  ∀ annotation ∈ list, annotation.Lawful

/-- The annotations of attributes are spelled by these. -/
theorem isExtracted_ofAttributes (attrs : List Source.Attribute) :
    ∀ annotation ∈ ofAttributes attrs, annotation.IsExtracted := by
  intro annotation hannotation
  obtain ⟨a, -, ha⟩ := List.mem_filterMap.mp hannotation
  refine ⟨a, ?_⟩
  split at ha
  · next other hother =>
    rw [hother, Option.some.inj ha]
  · exact absurd ha.symm (Option.some_ne_none _)

/-- What is looked up first among lawful annotations is lawful. -/
theorem Lawful.of_findSome? {list : Annotations} (h : Lawful list)
    {lookup : Annotation → Option α} {P : α → Prop}
    (hlookup : ∀ annotation, annotation.Lawful → ∀ a ∈ lookup annotation, P a) :
    ∀ a ∈ list.findSome? lookup, P a := by
  intro a ha
  obtain ⟨found, hmem, hfound⟩ := List.exists_of_findSome?_eq_some ha
  exact hlookup found (h found hmem) a hfound

/-- All that is looked up among lawful annotations is lawful. -/
theorem Lawful.of_filterMap {list : Annotations} (h : Lawful list)
    {lookup : Annotation → Option α} {P : α → Prop}
    (hlookup : ∀ annotation, annotation.Lawful → ∀ a ∈ lookup annotation, P a) :
    ∀ a ∈ list.filterMap lookup, P a := by
  intro a ha
  obtain ⟨found, hmem, hfound⟩ := List.mem_filterMap.mp ha
  exact hlookup found (h found hmem) a hfound

section Lookups

variable {list : Annotations} (h : Lawful list)
include h

theorem Lawful.schema? : ∀ decl ∈ schema? list, decl.Lawful :=
  h.of_findSome? fun annotation hannotation => by
    cases annotation <;> first | exact forall_mem_some hannotation | exact forall_mem_none

theorem Lawful.items? : ∀ decl ∈ items? list, decl.Lawful :=
  h.of_findSome? fun annotation hannotation => by
    cases annotation <;> first | exact forall_mem_some hannotation | exact forall_mem_none

theorem Lawful.operation? : ∀ decl ∈ operation? list, decl.Lawful :=
  h.of_findSome? fun annotation hannotation => by
    cases annotation <;> first | exact forall_mem_some hannotation | exact forall_mem_none

theorem Lawful.requestBody? : ∀ decl ∈ requestBody? list, decl.Lawful :=
  h.of_findSome? fun annotation hannotation => by
    cases annotation <;> first | exact forall_mem_some hannotation | exact forall_mem_none

theorem Lawful.properties : ∀ decl ∈ properties list, decl.Lawful :=
  h.of_filterMap fun annotation hannotation => by
    cases annotation <;> first | exact forall_mem_some hannotation | exact forall_mem_none

theorem Lawful.parameters : ∀ decl ∈ parameters list, decl.Lawful :=
  h.of_filterMap fun annotation hannotation => by
    cases annotation <;> first | exact forall_mem_some hannotation | exact forall_mem_none

theorem Lawful.responses : ∀ decl ∈ responses list, decl.Lawful :=
  h.of_filterMap fun annotation hannotation => by
    cases annotation <;> first | exact forall_mem_some hannotation | exact forall_mem_none

theorem Lawful.security : ∀ requirement ∈ security list, requirement.Lawful :=
  h.of_filterMap fun annotation hannotation => by
    cases annotation <;> first | exact forall_mem_some hannotation | exact forall_mem_none

/-- The first declared property. -/
theorem Lawful.property? : ∀ decl ∈ property? list, decl.Lawful :=
  fun decl hdecl => h.properties decl (List.mem_of_head? hdecl)

end Lookups

end Annotations

end AnnotatedApi
