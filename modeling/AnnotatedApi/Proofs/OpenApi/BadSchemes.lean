import AnnotatedApi.Proofs.Config.Loaded
import AnnotatedApi.Proofs.Datum.Placement
import AnnotatedApi.Proofs.OpenApi.Parts

/-! # Bad security schemes

A configuration drops an entry of its security schemes that cannot be read, and a document drops one
that is not complete. An object with such an entry more therefore gives the same configuration but
for this entry, and the same documents, whatever requirements and middleware name the entry.

This is said of JSON objects and of the JSON texts that are loaded, where a text has a value. The
limits of texts are not limits of entries: a text that nests deeper than `Json.maxDepth` levels in
the entry, or that has a number there that is too large or half of a pair of surrogates, has no
value and does not load at all, whatever the rest of it says. -/

namespace AnnotatedApi

open Datum
open Read (Relates Returns)

/-! ## Inserting a scheme -/

/-- A value that gives no complete scheme: it cannot be read as one, or what is read has a
defect. -/
def Json.IsBadScheme (value : Json) : Prop :=
  ∀ scheme, (ofJson value.collect).read? SecurityScheme.read = some scheme →
    scheme.isComplete = false

namespace Config

/-- The names of the field of the security schemes. -/
def schemeKeys : List String := ["security_schemes", "securitySchemes"]

/-- The fields of a configuration. -/
def fieldNames : List FieldNames :=
  [["info"], ["servers"], ["discovery"], ["generation"], schemeKeys, ["security"], ["parameters"],
    ["responses"], ["tags"], ["paths"]]

/-- The members of the object of a configuration, without and with an entry of a new name among its
security schemes. -/
inductive InsertsScheme (name : String) (value : Json) :
    List (String × Json) → List (String × Json) → Prop
  /-- The entry stands anywhere in the map that is there. -/
  | among {key : String} {before after front back : List (String × Json)} (hkey : key ∈ schemeKeys)
      (hname : name ∉ memberNames (front ++ back)) :
      InsertsScheme name value (before ++ (key, .object (front ++ back)) :: after)
        (before ++ (key, .object (front ++ (name, value) :: back)) :: after)
  /-- There was no map, and the entry is the only one. -/
  | alone {key : String} {before after : List (String × Json)} (hkey : key ∈ schemeKeys)
      (habsent : ∀ member ∈ before ++ after, member.1 ∉ schemeKeys) :
      InsertsScheme name value (before ++ after)
        (before ++ (key, .object [(name, value)]) :: after)

/-- One configuration is the other but for an incomplete security scheme of the name. -/
structure AddsBadScheme (name : String) (config config' : Config) : Prop where
  sections : config' = { config with securitySchemes := config'.securitySchemes }
  others : (config'.securitySchemes.filter fun entry => entry.1 ≠ name) = config.securitySchemes
  incomplete : ∀ entry ∈ config'.securitySchemes, entry.1 = name → entry.2.isComplete = false

/-! ## Schemes that are read -/

/-- The scheme of an entry, if it can be read. -/
def schemeOf? (entry : String × Json) : Option (String × SecurityScheme) :=
  ((ofJson entry.2).read? SecurityScheme.read).map fun scheme => (entry.1, scheme)

/-- The schemes that are read from the entries of a map. -/
def schemesIn (entries : List (String × Json)) : List (String × SecurityScheme) :=
  (collectMembers (mapMembers Json.collect entries)).filterMap schemeOf?

/-- A map of schemes is read entry by entry, on as many levels as it has. -/
theorem returns_readSchemes (entries : List (String × Json)) :
    Returns (ofJson (.object entries)).depth (readSchemes (ofJson (.object entries)))
      (schemesIn entries) :=
  (returns_jsonMembers entries).bind (.pure _)

variable {name : String} {value : Json} {front back : List (String × Json)}

/-- Without the entry of a new name, the schemes are what they are without it. -/
theorem filter_schemesIn (hname : name ∉ memberNames (front ++ back)) :
    ((schemesIn (front ++ (name, value) :: back)).filter fun entry => entry.1 ≠ name) =
      schemesIn (front ++ back) := by
  -- whether an entry is dropped depends on its value only, so it can be left out before or after
  have hkeeps : ∀ entries : List (String × Json),
      ((entries.filterMap schemeOf?).filter fun entry => entry.1 ≠ name) =
        (entries.filter fun entry => entry.1 ≠ name).filterMap schemeOf? := by
    intro entries
    rw [List.filter_filterMap, List.filterMap_filter]
    refine List.filterMap_congr fun entry _ => ?_
    by_cases h : entry.1 = name
    · cases hread : (ofJson entry.2).read? SecurityScheme.read <;> simp [schemeOf?, hread, h]
    · cases hread : (ofJson entry.2).read? SecurityScheme.read <;> simp [schemeOf?, hread, h]
  have hothers : ∀ entries : List (String × Json), name ∉ memberNames entries →
      (entries.filter fun entry => entry.1 ≠ name) = entries := by
    intro entries hentries
    refine List.filter_eq_self.mpr fun entry hentry => decide_eq_true ?_
    exact fun heq => hentries (heq ▸ mem_memberNames_of_mem hentry)
  rw [memberNames_append, List.mem_append, not_or] at hname
  have hmap : ∀ entries : List (String × Json), name ∉ memberNames entries →
      ((mapMembers Json.collect entries).filter fun entry => entry.1 ≠ name) =
        mapMembers Json.collect entries := by
    intro entries hentries
    refine hothers _ ?_
    rw [memberNames_mapMembers]
    exact hentries
  have happend : ∀ entries others : List (String × Json),
      mapMembers Json.collect (entries ++ others) =
        mapMembers Json.collect entries ++ mapMembers Json.collect others := fun _ _ =>
    List.map_append
  have hcons : mapMembers Json.collect ((name, value) :: back) =
      (name, value.collect) :: mapMembers Json.collect back := rfl
  rw [schemesIn, schemesIn, hkeeps, filter_collectMembers, happend, happend, hcons,
    List.filter_append, hmap front hname.1, List.filter_cons, if_neg (by simp), hmap back hname.2]

/-- The entry of a bad scheme gives no complete scheme. -/
theorem incomplete_of_mem_schemesIn (hname : name ∉ memberNames (front ++ back))
    (hbad : value.IsBadScheme) :
    ∀ entry ∈ schemesIn (front ++ (name, value) :: back), entry.1 = name →
      entry.2.isComplete = false := by
  -- only the inserted entry has the name
  have honly : ∀ entry ∈ collectMembers (mapMembers Json.collect (front ++ (name, value) :: back)),
      entry.1 = name → entry.2 = value.collect := by
    refine forall_mem_collectMembers (forall_mem_mapMembers fun entry hentry heq => ?_)
    rw [memberNames_append, List.mem_append, not_or] at hname
    rcases List.mem_append.mp hentry with hfront | hrest
    · have hmem : entry.1 ∈ memberNames front := mem_memberNames_of_mem hfront
      exact absurd (heq ▸ hmem) hname.1
    · rcases List.mem_cons.mp hrest with rfl | hback
      · rfl
      · have hmem : entry.1 ∈ memberNames back := mem_memberNames_of_mem hback
        exact absurd (heq ▸ hmem) hname.2
  intro entry hentry heq
  obtain ⟨⟨other, json⟩, hjson, hread⟩ := List.mem_filterMap.mp hentry
  obtain ⟨scheme, hscheme, rfl⟩ := Option.map_eq_some_iff.mp hread
  rw [honly (other, json) hjson heq] at hscheme
  exact hbad scheme hscheme

/-! ## Depths -/

/-- The members of an object are not deeper than the object. -/
theorem depth_lt_of_mem {member : String × Json} {members : List (String × Json)}
    (h : member ∈ members) : (ofJson member.2).depth < (ofJson (.object members)).depth :=
  Nat.lt_succ_of_le (depth_le_of_mem_ofMembers h)

/-- An object is at least as deep as one whose members are not deeper. -/
theorem depth_object_le {members members' : List (String × Json)}
    (h : ∀ member ∈ members, ∃ member' ∈ members',
      (ofJson member.2).depth ≤ (ofJson member'.2).depth) :
    (ofJson (.object members)).depth ≤ (ofJson (.object members')).depth := by
  refine Nat.succ_le_succ (depthOfMembers_ofMembers_le_iff.mpr fun member hmember => ?_)
  obtain ⟨member', hmember', hle⟩ := h member hmember
  exact Nat.le_trans hle (depth_le_of_mem_ofMembers hmember')

/-- An object with a member more is at least as deep. -/
theorem depth_append_le (member : String × Json) (before after : List (String × Json)) :
    (ofJson (.object (before ++ after))).depth ≤
      (ofJson (.object (before ++ member :: after))).depth := by
  refine depth_object_le fun other hother => ⟨other, ?_, Nat.le_refl _⟩
  rcases List.mem_append.mp hother with hbefore | hafter
  · exact List.mem_append_left _ hbefore
  · exact List.mem_append_right _ (List.mem_cons_of_mem _ hafter)

/-- An object with an entry more among its schemes is at least as deep. -/
theorem InsertsScheme.depth_le {members members' : List (String × Json)}
    (h : InsertsScheme name value members members') :
    (ofJson (.object members)).depth ≤ (ofJson (.object members')).depth := by
  cases h with
  | @among key before after front back hkey hname =>
      refine depth_object_le fun member hmember => ?_
      rcases List.mem_append.mp hmember with hbefore | hrest
      · exact ⟨member, List.mem_append_left _ hbefore, Nat.le_refl _⟩
      · rcases List.mem_cons.mp hrest with rfl | hafter
        · exact ⟨_, List.mem_append_right _ List.mem_cons_self, depth_append_le _ front back⟩
        · exact ⟨member, List.mem_append_right _ (List.mem_cons_of_mem _ hafter), Nat.le_refl _⟩
  | @alone key before after hkey habsent => exact depth_append_le _ before after

/-! ## Configurations that are read -/

/-- What is read from the field of the schemes without and with the entry. -/
theorem relates_schemes {slot : Option Datum} {setting : ReadSetting} {extra : Nat}
    (hname : name ∉ memberNames (front ++ back)) (hbad : value.IsBadScheme)
    (hslot : slot = some (ofJson (.object (front ++ back))) ∨ slot = none ∧ front ++ back = [])
    (hdepth : (ofJson (.object (front ++ (name, value) :: back))).depth ≤
      (setting.deeper extra).depth)
    (hnodes : ∀ node ∈ setting.nodes, True) :
    Relates setting (setting.deeper extra)
      (fun schemes schemes' => (schemes'.filter fun entry => entry.1 ≠ name) = schemes ∧
        ∀ entry ∈ schemes', entry.1 = name → entry.2.isComplete = false)
      (orElse [] readSchemes slot)
      (orElse [] readSchemes (some (ofJson (.object (front ++ (name, value) :: back))))) := by
  intro jumps r hr
  have hread' := returns_readSchemes (front ++ (name, value) :: back) (setting.deeper extra) jumps
    hdepth
  have hr' : r = (schemesIn (front ++ back), jumps) := by
    rcases hslot with rfl | ⟨rfl, hempty⟩
    · -- on more levels the same is read, and there it is known what
      obtain ⟨_, hdeeper, rfl, -⟩ := @yields_readSchemes _ _ extra _ domain_any trivial
        setting hnodes jumps r hr
      have hlevels : (ofJson (.object (front ++ back))).depth ≤ (setting.deeper extra).depth :=
        Nat.le_trans (depth_append_le (name, value) front back) hdepth
      have hread := returns_readSchemes (front ++ back) (setting.deeper extra) jumps hlevels
      rw [hread] at hdeeper
      exact (Option.some.inj hdeeper).symm
    · rw [hempty]
      exact (Option.some.inj hr).symm
  rw [hr']
  exact ⟨_, hread', filter_schemesIn hname, incomplete_of_mem_schemesIn hname hbad⟩

/-- An object whose slot of schemes has the entry more is read as a configuration that differs in
this entry only, on as many levels or on more. -/
theorem relates_of_refills {members members' : List (String × Json)} {slot : Option Datum}
    {levels extra : Nat} (hname : name ∉ memberNames (front ++ back)) (hbad : value.IsBadScheme)
    (hslot : slot = some (ofJson (.object (front ++ back))) ∨ slot = none ∧ front ++ back = [])
    (hrefills : Refills fieldNames 4 slot (.object (front ++ (name, value) :: back)) members
      members')
    (hdepth : (ofJson (.object (front ++ (name, value) :: back))).depth ≤ levels + extra) :
    Relates ⟨levels + 1, []⟩ ⟨levels + extra + 1, []⟩ (AddsBadScheme name)
      (Config.read (ofJson (.object members))) (Config.read (ofJson (.object members'))) := by
  refine Datum.relates_of_refills hrefills fun filled hfilled => ?_
  set setting : ReadSetting := ⟨levels, []⟩
  have hlevels : (ofJson (.object (front ++ (name, value) :: back))).depth ≤
      (setting.deeper extra).depth := hdepth
  have hnodes : ∀ node ∈ setting.nodes, True := fun _ _ => trivial
  have hany : ∀ slot : Option Datum, ∀ d ∈ slot, True := fun _ _ _ => trivial
  show Relates setting (setting.deeper extra) _ _ _
  -- all other fields are read as before, on the levels that are there now
  split
  · next info servers discovery generation securitySchemes security parameters responses tags
      paths =>
    obtain rfl : securitySchemes = slot := Option.some.inj hfilled
    exact (yields_orElse trivial (fun _ => Info.yields_read domain_any) (hany info)).bind_relates
        hnodes fun _ _ =>
      (domain_any.yields_orElse_list (fun _ => Server.yields_read domain_any)
        (hany servers)).bind_relates hnodes fun _ _ =>
      (yields_orElse trivial (fun _ => Discovery.yields_read domain_any)
        (hany discovery)).bind_relates hnodes fun _ _ =>
      (yields_orElse trivial (fun _ => Config.yields_readIncludesHidden domain_any)
        (hany generation)).bind_relates hnodes fun _ _ =>
      (relates_schemes hname hbad hslot hlevels hnodes).bind fun _ _ hschemes =>
      (domain_any.yields_orElse_list (fun _ => SecurityRequirement.yields_read domain_any)
        (hany security)).bind_relates hnodes fun _ _ =>
      (domain_any.yields_orElse_map (fun _ => Parameter.yields_read domain_any)
        (hany parameters)).bind_relates hnodes fun _ _ =>
      (domain_any.yields_orElse_map (fun _ => Response.yields_read domain_any)
        (hany responses)).bind_relates hnodes fun _ _ =>
      (domain_any.yields_orElse_list (fun _ => Tag.yields_read domain_any)
        (hany tags)).bind_relates hnodes fun _ _ =>
      (yields_orElse trivial (fun _ => DocumentPaths.yields_read domain_any)
        (hany paths)).bind_relates hnodes fun _ _ =>
      .pure ⟨rfl, hschemes.1, hschemes.2⟩
  · intro jumps r hr
    exact absurd hr.symm (Option.some_ne_none r)

/-- A configuration that can be read can be read with a bad scheme more where there are enough
levels, and is the same but for this scheme. -/
theorem InsertsScheme.relates {members members' : List (String × Json)} {levels extra : Nat}
    (h : InsertsScheme name value members members') (hbad : value.IsBadScheme)
    (hdepth : (ofJson (.object members')).depth ≤ levels + extra + 1) :
    Relates ⟨levels + 1, []⟩ ⟨levels + extra + 1, []⟩ (AddsBadScheme name)
      (Config.read (ofJson (.object members))) (Config.read (ofJson (.object members'))) := by
  have hfield : ∀ key ∈ schemeKeys, fieldOf? fieldNames key = some 4 := by decide
  -- the map of schemes is a member, so it is less deep than the object
  have hlevels : ∀ member ∈ members', (ofJson member.2).depth ≤ levels + extra := by
    intro member hmember
    exact Nat.le_of_lt_succ (Nat.lt_of_lt_of_le (depth_lt_of_mem hmember) hdepth)
  cases h with
  | @among key before after front back hkey hname =>
      exact relates_of_refills hname hbad (.inl rfl) (refills_of_replaced (hfield key hkey) _ _)
        (hlevels (key, _) (List.mem_append_right _ List.mem_cons_self))
  | @alone key before after hkey habsent =>
      have hothers : ∀ member ∈ before ++ after, fieldOf? fieldNames member.1 ≠ some 4 := by
        intro member hmember heq
        obtain ⟨hlt, hfound, -⟩ := List.findIdx?_eq_some_iff_getElem.mp heq
        exact habsent member hmember (List.contains_iff_mem.mp hfound)
      exact @relates_of_refills name value [] [] _ _ none levels extra List.not_mem_nil hbad
        (.inr ⟨rfl, rfl⟩) (refills_of_added (hfield key hkey) hothers _)
        (hlevels (key, _) (List.mem_append_right _ List.mem_cons_self))

/-- A configuration that can be read can be read with a bad scheme more, and is the same but for
this scheme. -/
theorem exists_read?_of_insertsScheme {members members' : List (String × Json)} {config : Config}
    (hinserts : InsertsScheme name value members members') (hbad : value.IsBadScheme)
    (h : (ofJson (.object members)).read? Config.read = some config) :
    ∃ config', (ofJson (.object members')).read? Config.read = some config' ∧
      AddsBadScheme name config config' := by
  obtain ⟨extra, hextra⟩ := Nat.exists_eq_add_of_le hinserts.depth_le
  have hrelates := @InsertsScheme.relates _ _ _ _ (ofJson (.object members)).depth extra hinserts
    hbad (hextra ▸ Nat.le_succ _)
  rw [← hextra] at hrelates
  exact hrelates.exists_value h

/-- A JSON text of a configuration can be loaded with a bad scheme more, and the configuration is
the same but for this scheme. -/
theorem exists_ofText_of_insertsScheme {members members' : List (String × Json)} {config : Config}
    {path text text' : String} (hinserts : InsertsScheme name value members members')
    (hbad : value.IsBadScheme) (hpath : DataFormat.ofPath path = .json)
    (htext : Json.parse? text = some (.object members))
    (htext' : Json.parse? text' = some (.object members')) (h : ofText path text = .ok config) :
    ∃ config', ofText path text' = .ok config' ∧ AddsBadScheme name config config' := by
  rw [ofText_eq_ok_iff hpath htext] at h
  obtain ⟨config', hread, hadds⟩ := (@InsertsScheme.relates _ _ _ _ (Json.maxDepth - 1) 0 hinserts
    hbad (read?_json_of_parse? htext').2).exists_value h
  exact ⟨config', (ofText_eq_ok_iff hpath htext').mpr hread, hadds⟩

end Config

/-! ## Documents -/

namespace Document

open Route

/-- A bad scheme is none of the schemes of a document. -/
theorem schemesOf_of_addsBadScheme {name : String} {config config' : Config}
    (h : Config.AddsBadScheme name config config') : schemesOf config' = schemesOf config := by
  rw [schemesOf, schemesOf, ← h.others, List.filter_filter]
  refine List.filter_congr fun entry hentry => ?_
  by_cases hname : entry.1 = name
  · simp [h.incomplete entry hentry hname]
  · simp [hname]

/-- A document looks at the security schemes of a configuration only where they are complete. -/
theorem generate_of_addsBadScheme {name : String} {config config' : Config}
    (h : Config.AddsBadScheme name config config') (endpoints : List Endpoint)
    (models : List Model) :
    generate config' endpoints models = generate config endpoints models := by
  have hschemes : schemesOf config' = schemesOf config := schemesOf_of_addsBadScheme h
  have hsections := h.sections
  have hcontext : contextOf config' models = contextOf config models := by
    rw [contextOf, contextOf, hschemes]
  have hcomponents : componentsOf config' models = componentsOf config models := by
    rw [componentsOf, componentsOf, hschemes, hsections]
  rw [generate_eq, generate_eq, hcontext, hcomponents, infoOf, infoOf, hsections]

/-- An entry that gives no complete security scheme changes no document, wherever it stands among
the schemes of a configuration object and whatever names it. The object can still be read, and
nothing else in the configuration changes. -/
theorem generate_eq_of_insertsScheme {name : String} {value : Json}
    {members members' : List (String × Json)} {config : Config}
    (hinserts : Config.InsertsScheme name value members members') (hbad : value.IsBadScheme)
    (h : (ofJson (.object members)).read? Config.read = some config) :
    ∃ config', (ofJson (.object members')).read? Config.read = some config' ∧
      config' = { config with securitySchemes := config'.securitySchemes } ∧
      (config'.securitySchemes.filter fun entry => entry.1 ≠ name) = config.securitySchemes ∧
      ∀ endpoints models, generate config' endpoints models = generate config endpoints models := by
  obtain ⟨config', hread, hadds⟩ := Config.exists_read?_of_insertsScheme hinserts hbad h
  exact ⟨config', hread, hadds.sections, hadds.others, generate_of_addsBadScheme hadds⟩

/-- The members of a configuration that requires a key, or else a token. -/
def keyOrToken (schemes : List (String × Json)) : List (String × Json) :=
  [("security_schemes", .object schemes),
    ("security", .array [.object [("key", .array [])], .object [("token", .array [])]])]

/-- The scheme of a token. -/
def tokenScheme : Json :=
  .object [("type", .text "http"), ("scheme", .text "bearer")]

/-- The scheme of a key that says nothing of where the key is. -/
def keyScheme : Json :=
  .object [("type", .text "apiKey"), ("name", .text "X-Key")]

/-- A key that is required without saying where it is changes no document. -/
theorem generate_eq_of_keyScheme :
    ∃ config config',
      (ofJson (.object (keyOrToken [("token", tokenScheme)]))).read? Config.read = some config ∧
        (ofJson (.object (keyOrToken [("key", keyScheme), ("token", tokenScheme)]))).read?
          Config.read = some config' ∧
        ∀ endpoints models,
          generate config' endpoints models = generate config endpoints models := by
  have hloads : ((ofJson (.object (keyOrToken [("token", tokenScheme)]))).read?
      Config.read).isSome = true := by decide +kernel
  obtain ⟨config, hconfig⟩ := Option.isSome_iff_exists.mp hloads
  have hinserts : Config.InsertsScheme "key" keyScheme (keyOrToken [("token", tokenScheme)])
      (keyOrToken [("key", keyScheme), ("token", tokenScheme)]) :=
    @Config.InsertsScheme.among _ _ "security_schemes" [] _ [] _ (by decide) (by decide)
  have hbad : keyScheme.IsBadScheme := by
    intro scheme hscheme
    have hdefect : ((ofJson keyScheme.collect).read? SecurityScheme.read).map
        SecurityScheme.isComplete = some false := by decide +kernel
    rw [hscheme] at hdefect
    exact Option.some.inj hdefect
  obtain ⟨config', hconfig', -, -, hsame⟩ :=
    generate_eq_of_insertsScheme hinserts hbad hconfig
  exact ⟨config, config', hconfig, hconfig', hsame⟩

/-- Nor does such an entry change anything where the two objects are the values of JSON texts of
configuration files: the text with the entry is loaded if the text without it is. -/
theorem generate_eq_of_ofText {name : String} {value : Json}
    {members members' : List (String × Json)} {config : Config} {path text text' : String}
    (hinserts : Config.InsertsScheme name value members members') (hbad : value.IsBadScheme)
    (hpath : DataFormat.ofPath path = .json) (htext : Json.parse? text = some (.object members))
    (htext' : Json.parse? text' = some (.object members'))
    (h : Config.ofText path text = .ok config) :
    ∃ config', Config.ofText path text' = .ok config' ∧
      config' = { config with securitySchemes := config'.securitySchemes } ∧
      (config'.securitySchemes.filter fun entry => entry.1 ≠ name) = config.securitySchemes ∧
      ∀ endpoints models, generate config' endpoints models = generate config endpoints models := by
  obtain ⟨config', hloaded, hadds⟩ :=
    Config.exists_ofText_of_insertsScheme hinserts hbad hpath htext htext' h
  exact ⟨config', hloaded, hadds.sections, hadds.others, generate_of_addsBadScheme hadds⟩

end Document

end AnnotatedApi
