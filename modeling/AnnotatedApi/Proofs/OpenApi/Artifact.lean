import AnnotatedApi.Proofs.Annotation.Extracted
import AnnotatedApi.Proofs.Config.Loaded
import AnnotatedApi.Proofs.OpenApi.Paths
import AnnotatedApi.Proofs.OpenApi.ReadingBack

/-! # Generated documents as artifacts

An artifact is the JSON value of a document. A lawful document without null among its optional
values is read back from its artifact, and so the artifact of what is read is the same. A document
that is generated from extracted annotations is such a document if the configuration holds no null:
all that generation does is to collect, to resolve and to prune lawful parts. -/

namespace AnnotatedApi

open Datum Source

/-! ## Artifacts -/

/-- A document and its artifact determine each other. -/
structure Document.RoundTrips (document : Document) : Prop where
  /-- The document is read back from its artifact, with the members of every map in their order. -/
  readBack : (ofJson document.toJson).read? Document.read = some document
  /-- What is read from the artifact has the same artifact. -/
  sameArtifact : ∀ loaded, (ofJson document.toJson).read? Document.read = some loaded →
    loaded.toJson = document.toJson

/-- A lawful document without null among its optional values and its artifact determine each
other. -/
theorem Document.Lawful.roundTrips {document : Document} (h : document.Lawful (· ≠ .null)) :
    document.RoundTrips := by
  have hread : (ofJson document.toJson).read? Document.read = some document :=
    h.readsBack.read?_eq
  refine ⟨hread, fun loaded hloaded => ?_⟩
  rw [hread, Option.some.injEq] at hloaded
  rw [hloaded]

/-! ## Parts of the configuration -/

namespace Document

open Route

variable {names : ModelNames} {allowed : Json → Prop}

/-- A lawful fragment that may not be there, with its references resolved. -/
theorem lawful_map_resolveFragment {fragment? : Option Fragment}
    (h : LawfulOption allowed fragment?) :
    LawfulOption allowed (fragment?.map names.resolveFragment) :=
  Option.forall_mem_map.mpr fun fragment hfragment => (h fragment hfragment).resolve

/-- A lawful parameter is lawful with its references resolved. -/
theorem lawful_resolveParameter {p : Parameter} (h : p.Lawful allowed) :
    (resolveParameter names p).Lawful allowed :=
  ⟨lawful_map_resolveFragment h.schema, h.exampleValue, h.examples⟩

/-- The content of a body is lawful with its references resolved. -/
theorem lawful_resolveContent {content : List (String × MediaType)}
    (h : LawfulMap (MediaType.Lawful allowed) content) :
    LawfulMap (MediaType.Lawful allowed) (resolveContent names content) := by
  refine .mapMembers h.nodup fun entry hentry => ?_
  have hmedia := h.each entry hentry
  exact ⟨lawful_map_resolveFragment hmedia.schema, hmedia.exampleValue, hmedia.examples⟩

/-- A lawful response is lawful with its references resolved. -/
theorem lawful_resolveResponse {r : Response} (h : r.Lawful allowed) :
    (resolveResponse names r).Lawful allowed where
  headers := by
    rw [resolveResponse]
    dsimp only
    refine .mapMembers h.headers.nodup fun entry hentry => ?_
    exact lawful_map_resolveFragment (h.headers.each entry hentry)
  content := lawful_resolveContent h.content

/-! ## Parts of the document -/

/-- The schemas of lawful models are lawful. -/
theorem lawful_schemasOf {models : List Model} (h : ∀ model ∈ models, model.Lawful) :
    LawfulMap (Fragment.Lawful (· ≠ .null)) (schemasOf models) :=
  List.foldlRecOn (motive := LawfulMap (Fragment.Lawful (· ≠ .null))) _ _ .empty
    fun _ hschemas model hmodel => hschemas.addMember model.name (h model hmodel).fragment

/-- What operations share is lawful. -/
theorem lawful_componentsOf {config : Config} {models : List Model}
    (hconfig : config.Lawful (· ≠ .null)) (hmodels : ∀ model ∈ models, model.Lawful) :
    (componentsOf config models).Lawful (· ≠ .null) where
  schemas := lawful_schemasOf hmodels
  securitySchemes := .collectMembers fun entry hentry =>
    hconfig.securitySchemes entry (List.mem_filter.mp hentry).1
  parameters := .collectMembers <| forall_mem_mapMembers fun entry hentry =>
    lawful_resolveParameter (hconfig.parameters.each entry hentry)
  responses := .collectMembers <| forall_mem_mapMembers fun entry hentry =>
    lawful_resolveResponse (hconfig.responses.each entry hentry)

/-- The operations of lawful endpoints are lawful. -/
theorem lawful_pathsOf (context : OperationContext) {endpoints : List Endpoint}
    (h : ∀ e ∈ endpoints, e.Lawful) :
    LawfulMap (LawfulMap (Operation.Lawful (· ≠ .null))) (pathsOf context endpoints) where
  nodup := nodup_pathsOf context endpoints
  each entry hentry := by
    -- a path has one operation per method, that of the last of its endpoints
    rw [eq_itemOf_of_mem_pathsOf context hentry, itemOf]
    refine .collectMembers fun entry hentry => ?_
    obtain ⟨e, he, rfl⟩ := List.mem_map.mp hentry
    exact context.lawful_shownOperation (h e (List.mem_filter.mp he).1)

/-! ## Whole documents -/

/-- A document that is generated from lawful parts is lawful. -/
theorem lawful_generate {config : Config} {endpoints : List Endpoint} {models : List Model}
    (hconfig : config.Lawful (· ≠ .null)) (hendpoints : ∀ e ∈ endpoints, e.Lawful)
    (hmodels : ∀ model ∈ models, model.Lawful) :
    (generate config endpoints models).Lawful (· ≠ .null) := by
  rw [generate_eq]
  exact {
    paths := lawful_pathsOf _ fun e he => hendpoints e (mem_shown_iff.mp he).1
    components := lawful_componentsOf hconfig hmodels
    security := lawful_pruneRequirements hconfig.security }

/-- A document that is generated from extracted annotations and a loaded configuration is lawful if
the configuration holds no null. -/
theorem lawful_generate_of_isLoaded {config : Config} {endpoints : List Endpoint}
    {models : List Model} (hloaded : config.IsLoaded) (hnull : ¬config.Holds .null)
    (hendpoints : ∀ e ∈ endpoints, e.IsExtracted) (hmodels : ∀ model ∈ models, model.IsExtracted) :
    (generate config endpoints models).Lawful (· ≠ .null) :=
  lawful_generate (hloaded.lawful hnull) (fun e he => (hendpoints e he).lawful)
    fun model hmodel => (hmodels model hmodel).lawful

/-- Documents without null among their optional values and their artifacts determine each other. All
documents that are generated from extracted annotations and a loaded configuration are among them if
the configuration holds no null, as is the case if it is loaded from JSON; and all annotations of
what is discovered in source files are extracted. -/
theorem artifact_roundTrips :
    (∀ document : Document, document.Lawful (· ≠ .null) → document.RoundTrips) ∧
      (∀ (config : Config) (endpoints : List Endpoint) (models : List Model),
        config.IsLoaded → ¬config.Holds .null → (∀ e ∈ endpoints, e.IsExtracted) →
          (∀ model ∈ models, model.IsExtracted) →
            (generate config endpoints models).Lawful (· ≠ .null)) ∧
      (∀ (path text : String) (config : Config), DataFormat.ofPath path = .json →
        Config.ofText path text = .ok config → ¬config.Holds .null) ∧
      ∀ (config : Config) (files : List ModuleFile) (routes : List HostRoute),
        (∀ e ∈ discover config (.ofFiles files) routes, e.IsExtracted) ∧
          ∀ model ∈ modelsOf config (.ofFiles files), model.IsExtracted := by
  refine ⟨fun document h => h.roundTrips, ?_, ?_, ?_⟩
  · intro config endpoints models hloaded hnull hendpoints hmodels
    exact lawful_generate_of_isLoaded hloaded hnull hendpoints hmodels
  · intro path text config hpath h
    exact Config.not_holds_null_of_json hpath h
  · intro config files routes
    exact ⟨isExtracted_of_mem_discover, isExtracted_of_mem_modelsOf⟩

/-- The example of the shared parameter of a name. -/
def sharedExample? (document : Document) (name : String) : Option Json :=
  (getMember? name document.components.parameters).bind Parameter.exampleValue

/-- What is there as an option is the result. -/
theorem eq_ok_of_toOption {ε : Type} {result : Except ε α} {a : α} (h : result.toOption = some a) :
    result = .ok a := by
  cases result with
  | error e => exact nomatch h
  | ok b => rw [Option.some.inj h]

/-- The text of a configuration in JSON with a parameter and its example. -/
def limitConfig : String :=
  "\x7b\"parameters\": \x7b\"limit\": \x7b\"name\": \"limit\", \"in\": \"query\", " ++
    "\"example\": 10\x7d\x7d\x7d"

/-- The attribute that declares a parameter with an example. -/
def sinceAttribute : Attribute where
  isGlobal := false
  path := ["openapi", "parameter"]
  form := .list [
    .name "name", .sign '=' false, .literal ⟨.text "since", "", "\"since\"".toList⟩,
    .sign ',' false, .name "location", .sign '=' false,
    .literal ⟨.text "query", "", "\"query\"".toList⟩,
    .sign ',' false, .name "example", .sign '=' false, .literal ⟨.integer 5, "", ['5']⟩]

/-- A handler with the parameter that the attribute declares. -/
def listSince : Endpoint where
  method := .get
  uri := "/tasks"
  parameters := []
  methodAnnotations :=
    [.parameter { name := "since", location := .query, exampleValue := some (.int 5) }]

/-- The attribute that declares an example of a model. -/
def exampleAttribute : Attribute where
  isGlobal := false
  path := ["schema"]
  form := .list [.name "example", .sign '=' false,
    .literal ⟨.text "Water plants", "", "\"Water plants\"".toList⟩]

/-- A model with the example that the attribute declares. -/
def titledTask : Model where
  identifier := "crate::models::task::Task"
  name := "Task"
  table := "tasks"
  fields := [("title", {})]
  casts := []
  fillable := []
  hidden := []
  annotations := [.schema { attrs := { exampleValue := some (.text "Water plants") } }]

/-- The document of the handler and the model. -/
def titledTasks (config : Config) : Document :=
  generate config [listSince] [titledTask]

/-- A document with examples from a configuration in JSON, a handler and a model is read back from
its artifact. -/
theorem artifact_roundTrips_titledTasks :
    ∃ config, Config.ofText "openapi.json" limitConfig = .ok config ∧
      (sharedExample? (titledTasks config) "limit").isSome = true ∧
      ((titledTasks config).operation? "/tasks" "get").map
          (fun o => o.parameters.map fun p => (p.name, p.exampleValue.isSome)) =
        some [("since", true)] ∧
      (titledTasks config).RoundTrips := by
  have hvalues : (Config.ofText "openapi.json" limitConfig).toOption.map (fun config =>
      ((sharedExample? (titledTasks config) "limit").isSome,
        ((titledTasks config).operation? "/tasks" "get").map
          fun o => o.parameters.map fun p => (p.name, p.exampleValue.isSome))) =
      some (true, some [("since", true)]) := by
    decide +kernel
  obtain ⟨config, hconfig, hvalues⟩ := Option.map_eq_some_iff.mp hvalues
  rw [Prod.mk.injEq] at hvalues
  have hok : Config.ofText "openapi.json" limitConfig = .ok config :=
    eq_ok_of_toOption hconfig
  have hjson : DataFormat.ofPath "openapi.json" = .json := by decide +kernel
  have hnull : ¬config.Holds .null := artifact_roundTrips.2.2.1 _ _ config hjson hok
  -- the annotations are spelled by attributes
  have hsince : Annotation.IsExtracted (.parameter
      { name := "since", location := .query, exampleValue := some (.int 5) }) :=
    Annotation.isExtracted_of_args sinceAttribute "parameter"
      [("name", .text "since"), ("location", .text "query"), ("example", .number (.int 5))]
      (by decide) (by cbv) rfl
  have hexample : Annotation.IsExtracted (.schema
      { attrs := { exampleValue := some (.text "Water plants") } }) :=
    Annotation.isExtracted_of_args exampleAttribute "schema" [("example", .text "Water plants")]
      (by decide) (by cbv) rfl
  have hendpoint : listSince.IsExtracted :=
    ⟨List.forall_mem_singleton.mpr hsince, List.forall_mem_nil _⟩
  have hmodel : titledTask.IsExtracted :=
    ⟨List.forall_mem_singleton.mpr hexample,
      List.forall_mem_singleton.mpr (List.forall_mem_nil _)⟩
  have hlawful : (titledTasks config).Lawful (· ≠ .null) :=
    artifact_roundTrips.2.1 config [listSince] [titledTask] ⟨_, _, config, hok, rfl⟩ hnull
      (List.forall_mem_singleton.mpr hendpoint) (List.forall_mem_singleton.mpr hmodel)
  exact ⟨config, hok, hvalues.1, hvalues.2, artifact_roundTrips.1 _ hlawful⟩

/-- The text of a configuration in YAML where the example of a parameter is not a number. -/
def nanConfig : String :=
  "parameters:\n  limit:\n    name: limit\n    in: query\n    example: .nan\n"

/-- An example that is not a number becomes null in a document that is generated from a loaded
configuration, and what is read back has no example. -/
theorem not_roundTrips_nanConfig :
    ∃ config, Config.ofText "openapi.yaml" nanConfig = .ok config ∧
      sharedExample? (generate config [] []) "limit" = some .null ∧
      ¬(generate config [] []).RoundTrips := by
  -- what is loaded is compared by booleans, as that it is null can be decided
  have hnull : (Config.ofText "openapi.yaml" nanConfig).toOption.map (fun config =>
      (sharedExample? (generate config [] []) "limit").map fun value => (ofJson value).isNull?) =
      some (some (some true)) := by
    decide +kernel
  have hloaded : (Config.ofText "openapi.yaml" nanConfig).toOption.bind (fun config =>
      ((ofJson (generate config [] []).toJson).read? Document.read).map fun loaded =>
        (sharedExample? loaded "limit").isSome) = some false := by
    decide +kernel
  obtain ⟨config, hconfig, hnull⟩ := Option.map_eq_some_iff.mp hnull
  obtain ⟨value, hvalue, hisNull⟩ := Option.map_eq_some_iff.mp hnull
  have hexample : sharedExample? (generate config [] []) "limit" = some .null := by
    by_cases h : value = .null
    · rw [hvalue, h]
    · rw [isNull?_ofJson h] at hisNull
      exact absurd hisNull (by decide)
  refine ⟨config, eq_ok_of_toOption hconfig, hexample, fun h => ?_⟩
  rw [hconfig, Option.bind_some, h.readBack, Option.map_some, hexample] at hloaded
  exact absurd hloaded (by decide)

end Document

end AnnotatedApi
