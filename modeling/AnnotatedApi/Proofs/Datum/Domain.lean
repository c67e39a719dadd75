import AnnotatedApi.Proofs.Datum.Yields

/-! # Reading within a domain

A domain is a property of data that the steps of reading keep: from a list or a record to what is in
it, from a scalar to what it is settled to. What a reader yields is said for the data of a domain;
where null is allowed, the domain also limits what JSON values are read. -/

namespace AnnotatedApi

open Read (Yields Agrees)

namespace Datum

/-! ## Domains -/

/-- Data among which reading stays. -/
structure Closed (D : Datum → Prop) : Prop where
  tagged : ∀ {value}, D (.tagged value) → D value
  items : ∀ {positional items}, D (.list positional items) → ∀ item ∈ items, D item
  keys : ∀ {members}, D (.record members) → ∀ member ∈ members, D member.1
  values : ∀ {members}, D (.record members) → ∀ member ∈ members, D member.2
  list : ∀ {items : List Datum}, (∀ item ∈ items, D item) → D (.list true items)
  record : ∀ {members : List (Datum × Datum)}, (∀ member ∈ members, D member.1 ∧ D member.2) →
    D (.record members)
  scalar : ∀ {style tag written d}, D (.scalar style tag written) →
    settleScalar style tag written = some d → D d

/-- All data. -/
theorem closed_any : Closed fun _ => True where
  tagged _ := trivial
  items _ _ _ := trivial
  keys _ _ _ := trivial
  values _ _ _ := trivial
  list _ := trivial
  record _ := trivial
  scalar _ _ := trivial

/-- Data among which reading stays, with the JSON values that are read from them where null is
allowed. -/
structure Domain (D : Datum → Prop) (allowed : Json → Prop) : Prop extends Closed D where
  value : ∀ {d extra}, D d → Yields D extra (fun v => ∀ json ∈ v, allowed json)
    (optional readJson d)

section Readers

variable {D : Datum → Prop} {allowed : Json → Prop} {extra : Nat} {P : α → Prop}
variable {reader : Reader α} {d : Datum}

/-! ## Aliases and tags -/

/-- What an alias stands for is in the domain. -/
theorem yields_resolve (hd : D d) : Yields D extra D (resolve d) := by
  intro setting hnodes jumps r hr
  cases d with
  -- an alias is looked up among the nodes, which are the same on more levels
  | «alias» node =>
      cases jumps with
      | zero => exact absurd hr.symm (Option.some_ne_none r)
      | succ jumps =>
          have hlookup : ∀ s : ReadSetting, (resolve (.alias node)).result s (jumps + 1) =
              (found (s.nodes.lookup node)).result s jumps := fun _ => rfl
          rw [hlookup] at hr ⊢
          have hsame : (setting.deeper extra).nodes = setting.nodes := rfl
          rw [hsame]
          cases hnode : setting.nodes.lookup node with
          | none =>
              rw [hnode] at hr
              exact absurd hr.symm (Option.some_ne_none r)
          | some value =>
              rw [hnode] at hr
              have hvalue : (value, jumps) = r := Option.some.inj hr
              rw [← hvalue]
              refine ⟨value, rfl, rfl, ?_⟩
              obtain ⟨_, _, hsplit, -⟩ := List.lookup_eq_some_iff.mp hnode
              refine hnodes (node, value) ?_
              rw [hsplit]
              exact List.mem_append_right _ List.mem_cons_self
  | _ =>
      refine ⟨r.1, ?_, rfl, ?_⟩
      · exact hr
      · have hvalue := Option.some.inj hr
        rw [← hvalue]
        exact hd

/-- The list or record that a datum stands for is in the domain. -/
theorem Closed.yields_content (h : Closed D) (hd : D d) :
    Yields D extra D (content d) := by
  refine (yields_resolve hd).bind fun value hvalue => .pure ?_
  cases value with
  | tagged value => exact h.tagged hvalue
  | _ => exact hvalue

/-! ## Scalars -/

theorem yields_readText (hd : D d) : Yields D extra (fun _ => True) (readText d) := by
  refine (yields_resolve hd).bind fun value _ => ?_
  cases value with
  | text | scalar => exact .pure trivial
  | _ => exact .failure

theorem yields_readBool (hd : D d) : Yields D extra (fun _ => True) (readBool d) := by
  refine (yields_resolve hd).bind fun value _ => ?_
  split
  · exact .pure trivial
  · exact .found fun _ _ => trivial
  · exact .found fun _ _ => trivial
  · exact .failure

theorem yields_readNumber (hd : D d) : Yields D extra (fun _ => True) (readNumber d) := by
  refine (yields_resolve hd).bind fun value _ => ?_
  cases value with
  | number => exact .pure trivial
  | _ => exact .failure

theorem yields_readNat (hd : D d) : Yields D extra (fun _ => True) (readNat d) :=
  (yields_readNumber hd).bind fun _ _ => .found fun _ _ => trivial

/-- A value that may be null. -/
theorem yields_optional (hreader : ∀ d, D d → Yields D extra P (reader d)) (hd : D d) :
    Yields D extra (fun v => ∀ a ∈ v, P a) (optional reader d) := by
  refine (yields_resolve hd).bind fun value hvalue => ?_
  refine Agrees.bind (.found fun _ _ => trivial) fun isNull (_ : True) => ?_
  cases isNull with
  | true => exact .pure fun a ha => absurd ha (Option.not_mem_none a)
  | false =>
      refine (hreader value hvalue).bind fun a ha => .pure ?_
      rintro _ ⟨⟩
      exact ha

/-! ## Lists and records -/

/-- A list of values. -/
theorem Closed.yields_listOf (h : Closed D)
    (hreader : ∀ d, D d → Yields D extra P (reader d)) (hd : D d) :
    Yields D extra (fun values => ∀ a ∈ values, P a) (listOf reader d) := by
  refine (h.yields_content hd).bind fun value hvalue => ?_
  split
  · exact (Agrees.mapM fun item hitem => hreader item (h.items hvalue item hitem)).within
  · split
    · exact .pure (List.forall_mem_nil _)
    · exact .failure

/-- A list of texts. -/
theorem Closed.yields_readTexts (h : Closed D) (hd : D d) :
    Yields D extra (fun _ => True) (readTexts d) :=
  (h.yields_listOf (fun _ => yields_readText) hd).imp fun _ _ => trivial

/-- A member of a record. -/
theorem Closed.yields_readMember (h : Closed D)
    (hreader : ∀ d, D d → Yields D extra P (reader d)) {members : List (Datum × Datum)}
    (hd : D (.record members)) {member : Datum × Datum} (hmember : member ∈ members) :
    Yields D extra (fun entry => P entry.2) (readMember reader member) := by
  refine (yields_readText (h.keys hd member hmember)).bind fun name _ => ?_
  exact (hreader member.2 (h.values hd member hmember)).bind fun value hvalue => .pure hvalue

/-- A record of named values, whose names differ then. -/
theorem Closed.yields_membersOf (h : Closed D)
    (hreader : ∀ d, D d → Yields D extra P (reader d)) (hd : D d) :
    Yields D extra (fun members => (memberNames members).Nodup ∧ ∀ entry ∈ members, P entry.2)
      (membersOf reader d) := by
  refine (h.yields_content hd).bind fun value hvalue => ?_
  split
  · have hmembers := (Agrees.mapM fun member hmember =>
      h.yields_readMember hreader hvalue hmember).within
    refine hmembers.bind fun members hmembers => .pure ⟨nodup_collectMembers members, ?_⟩
    exact forall_mem_collectMembers hmembers
  · split
    · exact .pure ⟨List.nodup_nil, List.forall_mem_nil _⟩
    · exact .failure

/-! ## JSON values -/

/-- A JSON value is read without repeated names, and as well with more levels to nest in. -/
theorem Closed.agrees_jsonFrom (h : Closed D) (levels : Nat) {d : Datum} (hd : D d) :
    Agrees D extra Json.IsCollected (jsonFrom levels d) (jsonFrom (levels + extra) d) := by
  rw [jsonFrom.eq_def, jsonFrom.eq_def (levels + extra)]
  refine (yields_resolve hd).bind fun value hvalue => ?_
  -- the second run always has `extra` levels more than the first, which fails when it has none
  cases value with
  | list positional items =>
      cases levels with
      | zero => exact .failure
      | succ levels =>
          rw [Nat.add_right_comm]
          have hitems : Agrees D extra (fun values => ∀ v ∈ values, v.IsCollected)
              (items.mapM (jsonFrom levels)) (items.mapM (jsonFrom (levels + extra))) :=
            .mapM fun item hitem => h.agrees_jsonFrom levels (h.items hvalue item hitem)
          exact hitems.bind fun values hvalues => .pure (Json.isCollected_array_iff.mpr hvalues)
  | record members =>
      cases levels with
      | zero => exact .failure
      | succ levels =>
          rw [Nat.add_right_comm]
          have hmembers : Agrees D extra (fun members => ∀ entry ∈ members, entry.2.IsCollected)
              (members.mapM (readMember (jsonFrom levels)))
              (members.mapM (readMember (jsonFrom (levels + extra)))) := by
            refine .mapM fun member hmember => ?_
            refine (yields_readText (h.keys hvalue member hmember)).bind fun name _ => ?_
            refine (h.agrees_jsonFrom levels (h.values hvalue member hmember)).bind ?_
            exact fun value hvalue => .pure hvalue
          refine hmembers.bind fun members hmembers => .pure (Json.isCollected_object_iff.mpr ?_)
          exact ⟨nodup_collectMembers members, forall_mem_collectMembers hmembers⟩
  | scalar style tag written =>
      dsimp only
      split
      all_goals first | exact .pure rfl | exact .failure
  | broken | tagged | «alias» => exact .failure
  | _ => exact .pure rfl

/-- A JSON value is read without repeated names. -/
theorem Closed.yields_readJson (h : Closed D) (hd : D d) :
    Yields D extra Json.IsCollected (readJson d) :=
  fun setting hnodes => h.agrees_jsonFrom setting.depth hd setting hnodes

/-- A JSON value that may be null is an allowed one. -/
theorem Domain.yields_json (h : Domain D allowed) (hd : D d) :
    Yields D extra (fun v => ∀ json ∈ v, json.IsCollected ∧ allowed json)
      (optional readJson d) := by
  have hcollected : Yields D extra (fun v => ∀ json ∈ v, json.IsCollected) (optional readJson d) :=
    yields_optional (fun _ hd => h.yields_readJson hd) hd
  refine (hcollected.and (h.value hd)).imp fun v hv json hjson => ?_
  exact ⟨hv.1 json hjson, hv.2 json hjson⟩

/-- All data, of which any value can be read. -/
theorem domain_any : Domain (fun _ => True) (fun _ => True) where
  toClosed := closed_any
  value := by
    intro d extra hd
    have hvalue : Yields (fun _ => True) extra (fun v => ∀ json ∈ v, json.IsCollected)
        (optional readJson d) := yields_optional (fun _ hd => closed_any.yields_readJson hd) hd
    exact hvalue.imp fun _ _ _ _ => trivial

/-! ## Settling -/

/-- A datum is settled within the domain, and as well with more levels to nest in. -/
theorem Closed.agrees_settleFrom (h : Closed D) (levels : Nat) {d : Datum} (hd : D d) :
    Agrees D extra D (settleFrom levels d) (settleFrom (levels + extra) d) := by
  rw [settleFrom.eq_def, settleFrom.eq_def (levels + extra)]
  refine (yields_resolve hd).bind fun value hvalue => ?_
  -- the levels of the two runs go down together, as for JSON values
  cases value with
  | list positional items =>
      cases levels with
      | zero => exact .failure
      | succ levels =>
          rw [Nat.add_right_comm]
          have hitems : Agrees D extra (fun values => ∀ v ∈ values, D v)
              (items.mapM (settleFrom levels)) (items.mapM (settleFrom (levels + extra))) :=
            .mapM fun item hitem => h.agrees_settleFrom levels (h.items hvalue item hitem)
          exact hitems.bind fun values hvalues => .pure (h.list hvalues)
  | record members =>
      cases levels with
      | zero => exact .failure
      | succ levels =>
          rw [Nat.add_right_comm]
          refine Agrees.bind (.mapM (P := fun member => D member.1 ∧ D member.2) ?_)
            fun members hmembers => .pure (h.record hmembers)
          intro member hmember
          refine (h.agrees_settleFrom levels (h.keys hvalue member hmember)).bind ?_
          intro key hkey
          refine (h.agrees_settleFrom levels (h.values hvalue member hmember)).bind ?_
          exact fun value hvalue => .pure ⟨hkey, hvalue⟩
  | scalar style tag written => exact .found fun value hsettled => h.scalar hvalue hsettled
  | broken | tagged | «alias» => exact .failure
  | _ => exact .pure hvalue

/-- What a reader yields for the data of a domain it gives for a file of such data. -/
theorem of_readFile? {file : DataFile} {a : α} (hreader : Yields D extra P (reader file.root))
    (hnodes : ∀ node ∈ file.nodes, D node.2) (h : file.read? reader = some a) : P a := by
  obtain ⟨r, hr, rfl⟩ := Option.map_eq_some_iff.mp h
  exact hreader.of_result hnodes hr

/-- What a reader yields for the data of a domain it gives for a datum by itself. -/
theorem of_read? {a : α} (hreader : Yields D extra P (reader d)) (h : d.read? reader = some a) :
    P a :=
  @of_readFile? _ D extra P reader { root := d, maxDepth := d.depth + 1 } a hreader
    (List.forall_mem_nil _) h

/-- A datum is read after it is settled; the levels it is then read on are its own. -/
theorem Closed.yields_settled (h : Closed D)
    (hreader : ∀ d, D d → Yields D 0 P (reader d)) (hd : D d) :
    Yields D extra P (settled reader d) := by
  have hsettle : Yields D extra D (settle d) :=
    fun setting hnodes => h.agrees_settleFrom setting.depth hd setting hnodes
  exact hsettle.bind fun value hvalue => .found fun a ha => of_read? (hreader value hvalue) ha

/-! ## Fields -/

/-- The data in slots are in the domain. -/
def SlotsIn (D : Datum → Prop) (slots : List (Option Datum)) : Prop :=
  ∀ slot ∈ slots, ∀ d ∈ slot, D d

/-- The field that a key means. -/
theorem yields_readField {fields : List FieldNames} (hd : D d) :
    Yields D extra (fun _ => True) (readField fields d) := by
  rw [readField.eq_def]
  split
  · exact Agrees.bind (.found fun _ _ => trivial) fun _ (_ : True) => .pure trivial
  · exact (yields_readText hd).bind fun _ _ => .pure trivial

/-- A member is put into a slot. -/
theorem yields_placeMember {fields : List FieldNames} {slots : List (Option Datum)}
    {member : Datum × Datum} (hslots : SlotsIn D slots) (hkey : D member.1) (hvalue : D member.2) :
    Yields D extra (SlotsIn D) (placeMember fields slots member) := by
  refine (yields_readField hkey).bind fun field _ => ?_
  split
  · exact .pure hslots
  · split
    · refine .pure fun slot hslot => ?_
      rcases List.mem_or_eq_of_mem_set hslot with hold | rfl
      · exact hslots slot hold
      · rintro _ ⟨⟩
        exact hvalue
    · exact .failure

/-- A record is read by its fields, which are in the domain. -/
theorem Closed.yields_recordOf (h : Closed D) {fields : List FieldNames}
    {build : List (Option Datum) → Read α} (hd : D d)
    (hbuild : ∀ slots, SlotsIn D slots → Yields D extra P (build slots)) :
    Yields D extra P (recordOf fields build d) := by
  have hvacant : ∀ n, SlotsIn D (List.replicate n none) := by
    intro n slot hslot
    rw [List.eq_of_mem_replicate hslot]
    exact fun d hd => absurd hd (Option.not_mem_none d)
  refine (h.yields_content hd).bind fun value hvalue => ?_
  split
  · next items =>
    split
    -- the items of a list fill the first slots by their position
    · refine (hbuild _ fun slot hslot => ?_).within
      rcases List.mem_append.mp hslot with hitem | hrest
      · obtain ⟨item, hmem, rfl⟩ := List.mem_map.mp hitem
        rintro _ ⟨⟩
        exact h.items hvalue item hmem
      · exact hvacant _ slot (List.mem_of_mem_drop hrest)
    · exact .failure
  · refine Agrees.within ?_
    refine (Agrees.foldlM (fun slots hslots member hmember => ?_) (hvacant _)).bind hbuild
    exact yields_placeMember hslots (h.keys hvalue member hmember) (h.values hvalue member hmember)
  · split
    · exact hbuild _ (hvacant _)
    · exact .failure

section Slots

variable {slot : Option Datum}

/-- A field that has to be there. -/
theorem yields_need (hreader : ∀ d, D d → Yields D extra P (reader d)) (hslot : ∀ d ∈ slot, D d) :
    Yields D extra P (need reader slot) :=
  Agrees.bind (.found hslot) hreader

/-- A field with a default. -/
theorem yields_orElse {default : α} (hdefault : P default)
    (hreader : ∀ d, D d → Yields D extra P (reader d)) (hslot : ∀ d ∈ slot, D d) :
    Yields D extra P (orElse default reader slot) := by
  cases slot with
  | none => exact .pure hdefault
  | some d => exact hreader d (hslot d rfl)

/-- A field that may be null or not there. -/
theorem yields_maybe (hreader : ∀ d, D d → Yields D extra P (reader d)) (hslot : ∀ d ∈ slot, D d) :
    Yields D extra (fun v => ∀ a ∈ v, P a) (maybe reader slot) :=
  yields_orElse (fun a ha => absurd ha (Option.not_mem_none a))
    (fun _ hd => yields_optional hreader hd) hslot

end Slots

end Readers

end Datum

end AnnotatedApi
