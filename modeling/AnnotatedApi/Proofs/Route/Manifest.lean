import AnnotatedApi.Project.Settings
import AnnotatedApi.Proofs.Datum.FieldOrder
import AnnotatedApi.Proofs.Datum.Written
import AnnotatedApi.Proofs.Text.Words

/-! # Manifests as they are written

One list of routes has many manifests: alone or under `routes`, with the members of each route in
any order and under either of their names, with all methods in one list or the first one apart, and
with what is not there left out. Reading gives the same routes for all of them, and what is left out
stays different from what is empty. The one thing that can be wrong with readable entries is that
one has no method, and then there is no route at all. -/

namespace AnnotatedApi.Route

open Datum
open Read (Returns)

/-! ## Methods -/

/-- A character whose small form is a small letter is an ASCII letter. -/
theorem of_asciiLower_letter {c : Char} (h : 'a' ≤ Text.asciiLower c ∧ Text.asciiLower c ≤ 'z') :
    c.toNat < 128 ∧ Text.isBlank c = false := by
  have hcode : c.toNat < 128 := by
    rw [Text.asciiLower] at h
    split at h
    · next hcapital => exact Nat.lt_of_le_of_lt hcapital.2 (by decide)
    · exact Nat.lt_of_le_of_lt h.2 (by decide)
  have hcodes : ∀ n < 128, 'a' ≤ Text.asciiLower (Char.ofNat n) →
      Text.isBlank (Char.ofNat n) = false := by
    decide
  have hblank := hcodes c.toNat hcode
  rw [Char.ofNat_toNat] at hblank
  exact ⟨hcode, hblank h.1⟩

/-- A method is read from its name in any letter case. -/
theorem read?_of_eqIgnoringAsciiCase {word : String} {method : HttpMethod}
    (h : Text.eqIgnoringAsciiCase word method.name = true) :
    HttpMethod.read? word = some method := by
  have hsmall : method.name.toList.all (fun c => 'a' ≤ c ∧ c ≤ 'z') = true := by
    cases method <;> rfl
  have hname : method.name.toList.map Text.asciiLower = method.name.toList := by
    cases method <;> rfl
  have hchars : word.toList.map Text.asciiLower = method.name.toList := by
    rw [Text.eqIgnoringAsciiCase, beq_iff_eq, hname] at h
    exact h
  -- a word that is a name but for case has letters only, so there is nothing to trim
  have hletters : ∀ c ∈ word.toList, 'a' ≤ Text.asciiLower c ∧ Text.asciiLower c ≤ 'z' := by
    intro c hc
    refine of_decide_eq_true (List.all_eq_true.mp hsmall _ ?_)
    rw [← hchars]
    exact List.mem_map_of_mem hc
  have htrimmed : Text.IsTrimmed word.toList :=
    ⟨fun c hc => (of_asciiLower_letter (hletters c (List.mem_of_mem_head? hc))).2,
      fun c hc => (of_asciiLower_letter (hletters c (List.mem_of_mem_getLast? hc))).2⟩
  have hascii : ∀ c ∈ word.toList, c.toNat < 128 :=
    fun c hc => (of_asciiLower_letter (hletters c hc)).1
  have hfold : HttpMethod.fold word = method.name := by
    rw [HttpMethod.fold, Text.trim_eq_self htrimmed, Text.lower, Text.lowerFrom_of_ascii hascii,
      hchars, String.ofList_toList]
  rw [HttpMethod.read?, hfold]
  cases method <;> rfl

/-! ## What is written -/

/-- A text. -/
def WritesText (text : String) (json : Json) : Prop :=
  json = .text text

/-- The name of a method, in any letter case. -/
def WritesMethod (method : HttpMethod) (json : Json) : Prop :=
  ∃ word, json = .text word ∧ Text.eqIgnoringAsciiCase word method.name = true

/-- What a route dispatches to: a text, or a pair of texts. -/
inductive WritesAction : HandlerAction → Json → Prop
  | reference (text : String) : WritesAction (.reference text) (.text text)
  | pair (owner method : String) :
      WritesAction (.pair owner method) (.array [.text owner, .text method])

/-- What a slot holds of patterns: an object with their names, or nothing if there are none. -/
inductive WritesWheres : List (String × String) → Option Json → Prop
  | absent : WritesWheres [] none
  | object {wheres : List (String × String)} : (memberNames wheres).Nodup →
      WritesWheres wheres (some (.object (mapMembers .text wheres)))

/-- The names of the fields of an entry. -/
def entryFields : List FieldNames :=
  [["method"], ["methods"], ["uri", "path"], ["action"], ["name"], ["middleware"],
    ["where", "wheres"], ["parameters"]]

/-- The members of an entry, in any order and each under any of its names. What the names of no
field are for does not matter. -/
structure WritesEntry (entry : ManifestEntry) (members : List (String × Json)) : Prop where
  once : FieldsOnce entryFields members
  method : WritesOptional WritesMethod entry.method (valueOf? ["method"] members)
  methods : WritesList WritesMethod entry.methods (valueOf? ["methods"] members)
  uri : valueOf? ["uri", "path"] members = some (.text entry.uri)
  action : WritesOptional WritesAction entry.action (valueOf? ["action"] members)
  name : WritesOptional WritesText entry.name (valueOf? ["name"] members)
  middleware : WritesList WritesText entry.middleware (valueOf? ["middleware"] members)
  wheres : WritesWheres entry.wheres (valueOf? ["where", "wheres"] members)
  /-- No parameters differ from none that are told. -/
  parameters : WritesOptional (fun names json => WritesList WritesText names (some json))
    entry.parameters (valueOf? ["parameters"] members)

/-- The objects of entries. -/
def WritesEntries (entries : List ManifestEntry) (items : List Json) : Prop :=
  List.Forall₂ (fun entry json => ∃ members, json = .object members ∧ WritesEntry entry members)
    entries items

/-- A manifest of entries: a list alone, or under `routes`. -/
inductive WritesManifest (entries : List ManifestEntry) : Json → Prop
  | list {items : List Json} : WritesEntries entries items → WritesManifest entries (.array items)
  | wrapped {members : List (String × Json)} {items : List Json} :
      FieldsOnce [["routes"]] members → valueOf? ["routes"] members = some (.array items) →
        WritesEntries entries items → WritesManifest entries (.object members)

/-! ## Reading it -/

theorem WritesMethod.ne_null {method : HttpMethod} {json : Json} (h : WritesMethod method json) :
    json ≠ .null := by
  obtain ⟨word, rfl, -⟩ := h
  exact Json.noConfusion

theorem WritesAction.ne_null {action : HandlerAction} {json : Json} (h : WritesAction action json) :
    json ≠ .null := by
  cases h <;> exact Json.noConfusion

theorem WritesText.ne_null {text : String} {json : Json} (h : WritesText text json) :
    json ≠ .null := by
  rw [WritesText] at h
  rw [h]
  exact Json.noConfusion

theorem reads_readMethod {method : HttpMethod} {json : Json} (h : WritesMethod method json) :
    Reads readMethod (ofJson json) method := by
  obtain ⟨word, rfl, hword⟩ := h
  refine Returns.bind (reads_readText word) ?_
  rw [read?_of_eqIgnoringAsciiCase hword]
  exact .pure method

theorem reads_readAction {action : HandlerAction} {json : Json} (h : WritesAction action json) :
    Reads readAction (ofJson json) action := by
  cases h with
  | reference text => exact .pure _
  | pair owner method => exact .pure _

theorem WritesText.reads {text : String} {json : Json} (h : WritesText text json) :
    Reads readText (ofJson json) text := by
  rw [WritesText] at h
  rw [h]
  exact reads_readText text

/-- Texts that are told are read, also if there are none. -/
theorem reads_readTexts {names : List String} {json : Json}
    (h : WritesList WritesText names (some json)) :
    Reads readTexts (ofJson json) names ∧ json ≠ .null := by
  cases h with
  | items hitems =>
      exact ⟨reads_listOf_of_forall₂ (fun _ _ hwrites => hwrites.reads) hitems,
        Json.noConfusion⟩

/-- Patterns are read from their slot. -/
theorem WritesWheres.returns {wheres : List (String × String)} {slot : Option Json} {depth : Nat}
    (h : WritesWheres wheres slot) (hdepth : ∀ json ∈ slot, (ofJson json).depth < depth) :
    Returns depth (orElse [] (membersOf readText) (slot.map ofJson)) wheres := by
  cases h with
  | absent => exact .pure []
  | object hnames =>
      exact (reads_membersOf hnames fun entry _ => reads_readText entry.2).mono (hdepth _ rfl)

/-- An entry is read from its members. -/
theorem WritesEntry.reads {entry : ManifestEntry} {members : List (String × Json)}
    (h : WritesEntry entry members) :
    Reads ManifestEntry.read (ofJson (.object members)) entry := by
  refine reads_recordOf_of_once (by decide) h.once fun depth hdepth => ?_
  have hslot : ∀ names ∈ entryFields, ∀ json ∈ valueOf? names members,
      (ofJson json).depth < depth := hdepth
  have hmethod := h.method.returns
    (fun _ _ hwrites => ⟨reads_readMethod hwrites, hwrites.ne_null⟩) (hslot _ (by decide))
  have hmethods := h.methods.returns (fun _ _ hwrites => reads_readMethod hwrites)
    (hslot _ (by decide))
  have huri : Returns depth (need readText ((valueOf? ["uri", "path"] members).map ofJson))
      entry.uri := by
    have hvalue := hslot ["uri", "path"] (by decide) (.text entry.uri) h.uri
    rw [h.uri]
    exact Returns.bind (.pure _) ((reads_readText entry.uri).mono hvalue)
  have haction := h.action.returns
    (fun _ _ hwrites => ⟨reads_readAction hwrites, hwrites.ne_null⟩) (hslot _ (by decide))
  have hname := h.name.returns
    (fun _ _ hwrites => ⟨hwrites.reads, hwrites.ne_null⟩) (hslot _ (by decide))
  have hmiddleware := h.middleware.returns (fun _ _ hwrites => hwrites.reads)
    (hslot _ (by decide))
  have hwheres := h.wheres.returns (hslot _ (by decide))
  have hparameters := h.parameters.returns
    (fun _ _ hwrites => reads_readTexts hwrites) (hslot _ (by decide))
  exact hmethod.bind <| hmethods.bind <| huri.bind <| haction.bind <| hname.bind <|
    hmiddleware.bind <| hwheres.bind <| hparameters.bind <| .pure entry

/-- Entries are read from their objects. -/
theorem WritesManifest.reads {entries : List ManifestEntry} {value : Json}
    (h : WritesManifest entries value) : Reads readEntries (ofJson value) entries := by
  have hlist : ∀ {items : List Json}, WritesEntries entries items →
      Reads (listOf ManifestEntry.read) (ofJson (.array items)) entries := by
    intro items hitems
    refine reads_listOf_of_forall₂ ?_ hitems
    rintro entry _ ⟨members, rfl, hentry⟩
    exact hentry.reads
  cases h with
  | list hitems => exact hlist hitems
  | @wrapped members items honce hroutes hitems =>
      refine reads_recordOf_of_once (by decide) honce fun depth hdepth => ?_
      have hvalue := hdepth ["routes"] List.mem_cons_self (.array items) hroutes
      show Returns depth (need (listOf ManifestEntry.read)
        ((valueOf? ["routes"] members).map ofJson)) entries
      rw [hroutes]
      exact Returns.bind (.pure _) ((hlist hitems).mono hvalue)

/-! ## Routes -/

/-- The route of an entry, if the entry has a method. -/
def ManifestEntry.hostRoute (entry : ManifestEntry) : HostRoute where
  methods := entry.allMethods
  uri := entry.uri
  action := entry.action
  name := entry.name
  middleware := entry.middleware
  wheres := entry.wheres
  parameters := entry.parameters

/-- The routes of entries, or the first entry that has no method. -/
def routesOfEntries (entries : List ManifestEntry) : Except ManifestError (List HostRoute) :=
  match entries.find? fun entry => entry.allMethods.isEmpty with
  | some entry => .error (.noMethod entry.uri)
  | none => .ok (entries.map ManifestEntry.hostRoute)

/-- Entries have routes if all of them have methods. -/
theorem mapM_route (entries : List ManifestEntry) :
    entries.mapM ManifestEntry.route = routesOfEntries entries := by
  induction entries with
  | nil => rfl
  | cons entry entries ih =>
      rw [List.mapM_cons, ih, ManifestEntry.route]
      by_cases hempty : entry.allMethods.isEmpty = true
      · have hfirst : routesOfEntries (entry :: entries) = .error (.noMethod entry.uri) := by
          rw [routesOfEntries, List.find?_cons, hempty]
        rw [if_pos hempty, hfirst]
        rfl
      · have hrest : routesOfEntries (entry :: entries) =
            (routesOfEntries entries).map (entry.hostRoute :: ·) := by
          rw [Bool.not_eq_true] at hempty
          rw [routesOfEntries, List.find?_cons, hempty, routesOfEntries]
          cases entries.find? fun entry => entry.allMethods.isEmpty with
          | none => rfl
          | some first => rfl
        rw [if_neg hempty, hrest]
        cases routesOfEntries entries with
        | error e => rfl
        | ok routes => rfl

/-- Entries of routes that all have methods have these routes. -/
theorem routesOfEntries_of_methods {entries : List ManifestEntry}
    (h : ∀ route ∈ entries.map ManifestEntry.hostRoute, route.methods ≠ []) :
    routesOfEntries entries = .ok (entries.map ManifestEntry.hostRoute) := by
  have hnone : (entries.find? fun entry => entry.allMethods.isEmpty) = none := by
    rw [List.find?_eq_none]
    intro entry hentry hempty
    exact h entry.hostRoute (List.mem_map_of_mem hentry) (List.isEmpty_iff.mp hempty)
  rw [routesOfEntries, hnone]

/-- Entries have no routes exactly when some entry has no method. -/
theorem routesOfEntries_eq_error_iff {entries : List ManifestEntry} :
    (∃ e, routesOfEntries entries = .error e) ↔ ∃ entry ∈ entries, entry.allMethods = [] := by
  rw [routesOfEntries]
  constructor
  · rintro ⟨e, he⟩
    cases hfind : entries.find? fun entry => entry.allMethods.isEmpty with
    | none =>
        rw [hfind] at he
        exact Except.noConfusion rfl rfl (heq_of_eq he)
    | some entry =>
        have hempty : entry.allMethods.isEmpty = true :=
          List.find?_some (p := fun entry : ManifestEntry => entry.allMethods.isEmpty) hfind
        exact ⟨entry, List.mem_of_find?_eq_some hfind, List.isEmpty_iff.mp hempty⟩
  · rintro ⟨entry, hentry, hempty⟩
    cases hfind : entries.find? fun entry => entry.allMethods.isEmpty with
    | none =>
        exact absurd (List.isEmpty_iff.mpr hempty) (List.find?_eq_none.mp hfind entry hentry)
    | some first => exact ⟨_, rfl⟩

/-- A text whose entries are readable has the routes of the entries. -/
theorem manifestOfText_of_read? {path text : String} {file : DataFile}
    {entries : List ManifestEntry} (hfile : (DataFormat.ofPath path).read? text = some file)
    (hentries : file.read? (settled readEntries) = some entries) :
    manifestOfText path text = (routesOfEntries entries).mapError (.badManifest path) := by
  have hroutes : routesOfManifest file = routesOfEntries entries := by
    rw [routesOfManifest, hentries]
    exact mapM_route entries
  rw [manifestOfText, hfile, ← hroutes]

/-- A JSON text of a manifest has the routes of the entries. -/
theorem manifestOfText_of_writes {entries : List ManifestEntry} {value : Json} {path text : String}
    (h : WritesManifest entries value) (hpath : DataFormat.ofPath path = .json)
    (htext : Json.parse? text = some value) :
    manifestOfText path text = (routesOfEntries entries).mapError (.badManifest path) := by
  obtain ⟨hfile, hdepth⟩ := read?_json_of_parse? htext
  refine manifestOfText_of_read? (hpath ▸ hfile) ?_
  rw [read?_settled_ofJson hdepth]
  exact h.reads.read?_eq

/-! ## Manifests of routes -/

/-- A manifest of entries that have the routes. -/
def WritesRoutes (routes : List HostRoute) (value : Json) : Prop :=
  ∃ entries, entries.map ManifestEntry.hostRoute = routes ∧ WritesManifest entries value

/-- What dispatches by a text or a pair can be written. No two patterns are for one name. -/
structure IsWritable (route : HostRoute) : Prop where
  action : ∀ name, route.action ≠ some (.function name)
  wheres : (memberNames route.wheres).Nodup

/-- The ways to write a manifest. -/
structure ManifestForm where
  /-- Whether the list of entries is under `routes`. -/
  wrapped : Bool
  /-- Whether addresses are under `path`. -/
  asPath : Bool
  /-- Whether patterns are under `wheres`. -/
  asWheres : Bool
  /-- Whether the first method of a route is under `method`. -/
  firstApart : Bool
  spelling : HttpMethod → String
  spelled : ∀ method, Text.eqIgnoringAsciiCase (spelling method) method.name = true

namespace ManifestForm

variable (form : ManifestForm)

/-- The entry of a route. -/
def entry (route : HostRoute) : ManifestEntry where
  method := if form.firstApart then route.methods.head? else none
  methods := if form.firstApart then route.methods.tail else route.methods
  uri := route.uri
  action := route.action
  name := route.name
  middleware := route.middleware
  wheres := route.wheres
  parameters := route.parameters

/-- The names of the members of an entry. -/
def names : List String :=
  ["method", "methods", if form.asPath then "path" else "uri", "action", "name", "middleware",
    if form.asWheres then "wheres" else "where", "parameters"]

/-- A list, left out if it is empty. -/
def listValue (items : List Json) : Option Json :=
  if items.isEmpty then none else some (.array items)

/-- Patterns, left out if there are none. -/
def wheresValue (wheres : List (String × String)) : Option Json :=
  if wheres.isEmpty then none else some (.object (mapMembers .text wheres))

/-- What a route dispatches to, if there is a way to write it. -/
def actionValue : HandlerAction → Option Json
  | .reference words => some (.text words)
  | .pair owner method => some (.texts [owner, method])
  | .function _ => none

/-- A method in its spelling. -/
def methodValue (method : HttpMethod) : Json :=
  .text (form.spelling method)

/-- The values of the members of an entry, where there are any. -/
def values (entry : ManifestEntry) : List (Option Json) :=
  [entry.method.map form.methodValue, listValue (entry.methods.map form.methodValue),
    some (.text entry.uri), entry.action.bind actionValue, entry.name.map .text,
    listValue (entry.middleware.map .text), wheresValue entry.wheres,
    entry.parameters.map .texts]

/-- The manifest of routes. -/
def encode (routes : List HostRoute) : Json :=
  let items := Json.array <| routes.map fun route =>
    .object (present form.names (form.values (form.entry route)))
  if form.wrapped then .object [("routes", items)] else items

/-- The entry of a route has the route, however its methods are written. -/
theorem hostRoute_entry (route : HostRoute) : (form.entry route).hostRoute = route := by
  have hmethods : (form.entry route).allMethods = route.methods := by
    rw [ManifestEntry.allMethods, entry]
    by_cases hfirst : form.firstApart = true
    · simp only [if_pos hfirst]
      cases route.methods with
      | nil => rfl
      | cons method methods => rfl
    · simp only [if_neg hfirst]
      rfl
  rw [ManifestEntry.hostRoute, hmethods]
  rfl

section Values

variable {writes : α → Json → Prop} {f : α → Json}

theorem forall₂_map (h : ∀ a, writes a (f a)) (values : List α) :
    List.Forall₂ writes values (values.map f) := by
  rw [List.forall₂_map_right_iff]
  exact List.forall₂_same.mpr fun a _ => h a

theorem writesList_listValue (h : ∀ a, writes a (f a)) (values : List α) :
    WritesList writes values (listValue (values.map f)) := by
  cases values with
  | nil => exact .absent
  | cons a values => exact .items (forall₂_map h (a :: values))

theorem writesOptional_map (h : ∀ a, writes a (f a)) (value : Option α) :
    WritesOptional writes value (value.map f) := by
  cases value with
  | none => exact .absent
  | some a => exact .value (h a)

end Values

theorem writesOptional_action {action : Option HandlerAction}
    (h : ∀ name, action ≠ some (.function name)) :
    WritesOptional WritesAction action (action.bind actionValue) := by
  match action, h with
  | none, _ => exact .absent
  | some (.reference words), _ => exact .value (.reference words)
  | some (.pair owner method), _ => exact .value (.pair owner method)
  | some (.function name), h => exact absurd rfl (h name)

theorem writesWheres_wheresValue {wheres : List (String × String)}
    (h : (memberNames wheres).Nodup) : WritesWheres wheres (wheresValue wheres) := by
  cases wheres with
  | nil => exact .absent
  | cons first wheres => exact .object h

/-- Each name is of its field and of no other one. -/
theorem names_mem_and_nodup :
    List.Forall₂ (fun name others => name ∈ others) form.names entryFields ∧
      (form.names.filterMap (fieldOf? entryFields)).Nodup := by
  rw [names]
  cases form.asPath <;> cases form.asWheres <;> decide

/-- The members of a writable route are those of its entry. -/
theorem writesEntry {route : HostRoute} (h : IsWritable route) :
    WritesEntry (form.entry route) (present form.names (form.values (form.entry route))) := by
  obtain ⟨hnames, honce⟩ := form.names_mem_and_nodup
  have hvalues : entryFields.map (fun others => valueOf? others
      (present form.names (form.values (form.entry route)))) = form.values (form.entry route) :=
    map_valueOf?_present (by decide) hnames rfl
  simp only [entryFields, values, List.map_cons, List.map_nil, List.cons.injEq] at hvalues
  obtain ⟨hmethod, hmethods, huri, haction, hname, hmiddleware, hwheres, hparameters, -⟩ := hvalues
  have hspelled : ∀ method, WritesMethod method (form.methodValue method) :=
    fun method => ⟨_, rfl, form.spelled method⟩
  have htext : ∀ words, WritesText words (.text words) := fun _ => rfl
  have htexts : ∀ texts, WritesList WritesText texts (some (.texts texts)) :=
    fun texts => .items (forall₂_map htext texts)
  exact {
    once := fieldsOnce_present _ honce
    method := hmethod ▸ writesOptional_map hspelled _
    methods := hmethods ▸ writesList_listValue hspelled _
    uri := huri
    action := haction ▸ writesOptional_action h.action
    name := hname ▸ writesOptional_map htext _
    middleware := hmiddleware ▸ writesList_listValue htext _
    wheres := hwheres ▸ writesWheres_wheresValue h.wheres
    parameters := hparameters ▸ writesOptional_map htexts _ }

/-- What a form gives for writable routes is a manifest of the routes. -/
theorem writesRoutes_encode {routes : List HostRoute} (h : ∀ route ∈ routes, IsWritable route) :
    WritesRoutes routes (form.encode routes) := by
  have hentries : WritesEntries (routes.map form.entry) (routes.map fun route =>
      .object (present form.names (form.values (form.entry route)))) := by
    rw [WritesEntries, List.forall₂_map_left_iff, List.forall₂_map_right_iff]
    exact List.forall₂_same.mpr fun route hroute => ⟨_, rfl, form.writesEntry (h route hroute)⟩
  have hroutes : (routes.map form.entry).map ManifestEntry.hostRoute = routes := by
    have hsame : ManifestEntry.hostRoute ∘ form.entry = id := funext form.hostRoute_entry
    rw [List.map_map, hsame, List.map_id]
  refine ⟨routes.map form.entry, hroutes, ?_⟩
  rw [encode]
  by_cases hwrapped : form.wrapped = true
  · rw [if_pos hwrapped]
    exact .wrapped (List.pairwise_singleton _ 0) rfl hentries
  · rw [if_neg hwrapped]
    exact .list hentries

end ManifestForm

/-! ## Manifests read back -/

/-- Routes with methods are read back in their order from every JSON text of a manifest of them.
There is such a manifest of every form if they can be written. A JSON text of a manifest is rejected
exactly when one of its entries has no method, and so is any text that entries can be read from. -/
theorem manifestOfText_reads_back :
    (∀ (form : ManifestForm) (routes : List HostRoute), (∀ route ∈ routes, IsWritable route) →
      WritesRoutes routes (form.encode routes)) ∧
    (∀ (routes : List HostRoute) (value : Json) (path text : String),
      (∀ route ∈ routes, route.methods ≠ []) → WritesRoutes routes value →
      DataFormat.ofPath path = .json → Json.parse? text = some value →
      manifestOfText path text = .ok routes) ∧
    (∀ (entries : List ManifestEntry) (value : Json) (path text : String),
      WritesManifest entries value → DataFormat.ofPath path = .json →
      Json.parse? text = some value →
      ((∃ e, manifestOfText path text = .error e) ↔ ∃ entry ∈ entries, entry.allMethods = [])) ∧
    ∀ (entries : List ManifestEntry) (path text : String) (file : DataFile),
      (DataFormat.ofPath path).read? text = some file →
      file.read? (settled readEntries) = some entries →
      ((∃ e, manifestOfText path text = .error e) ↔ ∃ entry ∈ entries, entry.allMethods = []) := by
  have hrejected : ∀ {entries : List ManifestEntry} {path text : String},
      manifestOfText path text = (routesOfEntries entries).mapError (.badManifest path) →
      ((∃ e, manifestOfText path text = .error e) ↔ ∃ entry ∈ entries, entry.allMethods = []) := by
    intro entries path text h
    rw [h, ← routesOfEntries_eq_error_iff]
    cases routesOfEntries entries with
    | error e => exact ⟨fun _ => ⟨e, rfl⟩, fun _ => ⟨_, rfl⟩⟩
    | ok routes => exact ⟨by rintro ⟨_, ⟨⟩⟩, by rintro ⟨_, ⟨⟩⟩⟩
  refine ⟨fun form routes h => form.writesRoutes_encode h, ?_, ?_, ?_⟩
  · rintro _ value path text hmethods ⟨entries, rfl, hwrites⟩ hpath htext
    rw [manifestOfText_of_writes hwrites hpath htext, routesOfEntries_of_methods hmethods]
    rfl
  · intro entries value path text hwrites hpath htext
    exact hrejected (manifestOfText_of_writes hwrites hpath htext)
  · intro entries path text file hfile hentries
    exact hrejected (manifestOfText_of_read? hfile hentries)

set_option maxRecDepth 4000 in
/-- A route is read back from a list with the first method apart and the methods in capitals, and a
list with an entry without methods is rejected. -/
theorem manifestOfText_tasks :
    manifestOfText "tasks.json"
      "[\x7b\"method\":\"PUT\",\"methods\":[\"PATCH\"],\"path\":\"/\",\"parameters\":[]\x7d]" =
        .ok [{ methods := [.put, .patch], uri := "/", parameters := some [] }] ∧
    ∃ e, manifestOfText "tasks.json" "[\x7b\"path\":\"/\"\x7d]" = .error e := by
  obtain ⟨hencode, hroutes, hrejected, -⟩ := manifestOfText_reads_back
  let form : ManifestForm := {
    wrapped := false
    asPath := true
    asWheres := true
    firstApart := true
    spelling := fun
      | .put => "PUT"
      | .patch => "PATCH"
      | method => method.name
    spelled := by intro method; cases method <;> rfl }
  have hwritable : ∀ route : HostRoute, (∀ name, route.action ≠ some (.function name)) →
      route.wheres = [] → ∀ route' ∈ [route], IsWritable route' := by
    intro route haction hwheres route' hroute'
    obtain rfl := List.mem_singleton.mp hroute'
    exact ⟨haction, hwheres ▸ List.nodup_nil⟩
  constructor
  · exact hroutes _ _ "tasks.json" _ (by decide)
      (hencode form _ (hwritable _ (fun _ => nofun) rfl)) (by decide) (by rfl)
  · obtain ⟨entries, hentries, hwrites⟩ := hencode form _
      (hwritable { methods := [], uri := "/" } (fun _ => nofun) rfl)
    obtain ⟨entry, rfl, hentry⟩ := List.map_eq_singleton_iff.mp hentries
    exact (hrejected [entry] _ "tasks.json" _ hwrites (by decide) (by rfl)).mpr
      ⟨entry, List.mem_singleton_self _, congrArg HostRoute.methods hentry⟩

end AnnotatedApi.Route
