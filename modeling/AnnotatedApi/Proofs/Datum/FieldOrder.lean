import Mathlib.Data.List.Forall2
import AnnotatedApi.Proofs.Datum.Placement

/-! # Records in any order

The members of an object may come in any order, each under any of the names of its field. If no
field has two members, every slot gets the value of the member of its field, wherever that stands,
and what is read from the object is what is built from these slots. -/

namespace AnnotatedApi.Datum

open Read (Returns)

/-- The value of the first member that has one of the names. -/
def valueOf? (names : FieldNames) (members : List (String × Json)) : Option Json :=
  (members.find? fun member => names.contains member.1).map Prod.snd

/-- No field has two members. -/
def FieldsOnce (fields : List FieldNames) (members : List (String × Json)) : Prop :=
  (members.filterMap fun member => fieldOf? fields member.1).Nodup

/-- No name is a name of two fields. -/
def FieldsApart (fields : List FieldNames) : Prop :=
  fields.Pairwise fun names others => ∀ name ∈ names, name ∉ others

instance (fields : List FieldNames) (members : List (String × Json)) :
    Decidable (FieldsOnce fields members) :=
  inferInstanceAs (Decidable (List.Nodup _))

instance (fields : List FieldNames) : Decidable (FieldsApart fields) :=
  inferInstanceAs (Decidable (List.Pairwise _ _))

/-- The slots of fields, with the values of the members. -/
def slotsOf (fields : List FieldNames) (members : List (String × Json)) : List (Option Datum) :=
  fields.map fun names => (valueOf? names members).map ofJson

variable {fields : List FieldNames} {members : List (String × Json)}

/-- A name is of a field exactly when it is among the names of the field. -/
theorem fieldOf?_eq_some_iff (hfields : FieldsApart fields) {name : String} {i : Nat} :
    fieldOf? fields name = some i ↔ ∃ names, fields[i]? = some names ∧ name ∈ names := by
  rw [fieldOf?, List.findIdx?_eq_some_iff_getElem]
  constructor
  · rintro ⟨hlt, hname, -⟩
    exact ⟨fields[i], List.getElem?_eq_getElem hlt, List.contains_iff_mem.mp hname⟩
  · rintro ⟨names, hnames, hname⟩
    obtain ⟨hlt, rfl⟩ := List.getElem?_eq_some_iff.mp hnames
    refine ⟨hlt, List.contains_iff_mem.mpr hname, fun j hj hother => ?_⟩
    exact List.pairwise_iff_getElem.mp hfields j i (by omega) hlt hj name
      (List.contains_iff_mem.mp hother) hname

/-- One more member gives its field a value, unless the field has one. -/
theorem valueOf?_concat (names : FieldNames) (member : String × Json) :
    valueOf? names (members ++ [member]) =
      (valueOf? names members).or (if member.1 ∈ names then some member.2 else none) := by
  have hlast : valueOf? names [member] = if member.1 ∈ names then some member.2 else none := by
    rw [valueOf?, List.find?_singleton]
    by_cases hname : member.1 ∈ names
    · rw [if_pos hname, if_pos (List.contains_iff_mem.mpr hname)]
      rfl
    · rw [if_neg hname, if_neg (hname ∘ List.contains_iff_mem.mp)]
      rfl
  rw [← hlast, valueOf?, valueOf?, valueOf?, List.find?_append, Option.map_or]

/-- A field without a member has no value. -/
theorem valueOf?_eq_none (hfields : FieldsApart fields) {i : Nat} {names : FieldNames}
    (hnames : fields[i]? = some names)
    (hfree : i ∉ members.filterMap fun member => fieldOf? fields member.1) :
    valueOf? names members = none := by
  rw [valueOf?, Option.map_eq_none_iff, List.find?_eq_none]
  intro member hmember hname
  refine hfree (List.mem_filterMap.mpr ⟨member, hmember, ?_⟩)
  exact (fieldOf?_eq_some_iff hfields).mpr ⟨names, hnames, List.contains_iff_mem.mp hname⟩

/-- A member of no field changes no value. -/
theorem slotsOf_concat_of_none (hfields : FieldsApart fields) {member : String × Json}
    (hfield : fieldOf? fields member.1 = none) :
    slotsOf fields (members ++ [member]) = slotsOf fields members := by
  refine List.map_congr_left fun names hnames => ?_
  obtain ⟨i, hi⟩ := List.mem_iff_getElem?.mp hnames
  have hname : member.1 ∉ names := by
    intro hname
    have hsome := (fieldOf?_eq_some_iff hfields).mpr ⟨names, hi, hname⟩
    rw [hfield] at hsome
    exact absurd hsome.symm (Option.some_ne_none i)
  rw [valueOf?_concat, if_neg hname, Option.or_none]

/-- The first member of a field finds the slot free and fills it. -/
theorem slotsOf_concat_of_some (hfields : FieldsApart fields) {member : String × Json} {i : Nat}
    (hfield : fieldOf? fields member.1 = some i)
    (hvacant : i ∉ members.filterMap fun member => fieldOf? fields member.1) :
    (slotsOf fields members)[i]? = some none ∧
      (slotsOf fields members).set i (some (ofJson member.2)) =
        slotsOf fields (members ++ [member]) := by
  obtain ⟨names, hnames, hname⟩ := (fieldOf?_eq_some_iff hfields).mp hfield
  have hnone := valueOf?_eq_none hfields hnames hvacant
  have hslot : (slotsOf fields members)[i]? = some none := by
    rw [slotsOf, List.getElem?_map, hnames, Option.map_some, hnone]
    rfl
  refine ⟨hslot, List.ext_getElem? fun j => ?_⟩
  -- the slot of the field has the member now, and the names of other fields are apart
  by_cases hj : i = j
  · subst hj
    rw [List.getElem?_set_self (List.getElem?_eq_some_iff.mp hslot).1, slotsOf,
      List.getElem?_map, hnames, Option.map_some, valueOf?_concat, hnone, if_pos hname]
    rfl
  · rw [List.getElem?_set_ne hj, slotsOf, slotsOf, List.getElem?_map, List.getElem?_map]
    cases hothers : fields[j]? with
    | none => rfl
    | some others =>
        have hnot : member.1 ∉ others := by
          intro hmem
          have hsame := (fieldOf?_eq_some_iff hfields).mpr ⟨others, hothers, hmem⟩
          rw [hfield, Option.some.injEq] at hsame
          exact hj hsame
        rw [Option.map_some, Option.map_some, valueOf?_concat, if_neg hnot, Option.or_none]

/-- Members of different fields are put into their slots, whatever their order is. -/
theorem foldlM_place?_eq (hfields : FieldsApart fields) (honce : FieldsOnce fields members) :
    members.foldlM (place? fields) (List.replicate fields.length none) =
      some (slotsOf fields members) := by
  -- by induction on the members that are in front of the last one
  induction members using List.reverseRecOn with
  | nil =>
      have hnone : slotsOf fields [] = fields.map fun _ => none := rfl
      rw [List.foldlM_nil, hnone, List.map_const']
      rfl
  | append_singleton members member ih =>
      rw [FieldsOnce, List.filterMap_append, List.nodup_append] at honce
      obtain ⟨hbefore, -, hother⟩ := honce
      have hlast : (members ++ [member]).foldlM (place? fields)
          (List.replicate fields.length none) =
            place? fields (slotsOf fields members) member := by
        rw [List.foldlM_append, ih hbefore, Option.bind_eq_bind, Option.bind_some,
          List.foldlM_cons]
        exact bind_pure _
      rw [hlast]
      cases hfield : fieldOf? fields member.1 with
      | none => rw [place?, hfield, slotsOf_concat_of_none hfields hfield]
      | some i =>
          have hvacant : i ∉ members.filterMap fun member => fieldOf? fields member.1 := by
            intro hmem
            exact hother i hmem i (List.mem_filterMap.mpr
              ⟨member, List.mem_singleton_self _, hfield⟩) rfl
          obtain ⟨hslot, hset⟩ := slotsOf_concat_of_some hfields hfield hvacant
          rw [place?_of_free hfield hslot, hset]

/-- A value of a field is the value of a member. -/
theorem exists_mem_of_valueOf? {names : FieldNames} {value : Json}
    (h : valueOf? names members = some value) : ∃ name, (name, value) ∈ members := by
  obtain ⟨member, hmember, rfl⟩ := Option.map_eq_some_iff.mp h
  exact ⟨member.1, List.mem_of_find?_eq_some hmember⟩

/-- An object whose members are of different fields is read by the slots of the fields. -/
theorem reads_recordOf_of_once {build : List (Option Datum) → Read α} {a : α}
    (hfields : FieldsApart fields) (honce : FieldsOnce fields members)
    (hbuild : ∀ depth, (∀ names ∈ fields, ∀ value ∈ valueOf? names members,
      (ofJson value).depth < depth) → Returns depth (build (slotsOf fields members)) a) :
    Reads (recordOf fields build) (ofJson (.object members)) a := by
  have hplaced : Returns 0 ((ofMembers members).foldlM (placeMember fields)
      (List.replicate fields.length none)) (slotsOf fields members) := by
    intro setting jumps _
    rw [result_foldlM_placeMember, foldlM_place?_eq hfields honce]
    rfl
  have hslots := hbuild (depthOfMembers (ofMembers members) + 1) ?_
  · rw [Reads, recordOf, content_ofJson, pure_bind]
    exact ((hplaced.mono (Nat.zero_le _)).bind hslots).within
  · intro names _ value hvalue
    obtain ⟨name, hname⟩ := exists_mem_of_valueOf? hvalue
    exact Nat.lt_succ_of_le (depth_le_of_mem_ofMembers hname)

/-! ## Members with and without values -/

/-- The members of some names that have a value. -/
def present : List String → List (Option Json) → List (String × Json)
  | name :: names, some value :: values => (name, value) :: present names values
  | _ :: names, none :: values => present names values
  | _, _ => []

/-- The members keep the order of the names. -/
theorem map_fst_present_sublist (names : List String) (values : List (Option Json)) :
    ((present names values).map Prod.fst).Sublist names := by
  fun_induction present names values with
  | case1 name names value values ih => exact ih.cons_cons name
  | case2 name names values ih => exact ih.cons name
  | case3 => exact List.nil_sublist _

/-- Names of different fields give no field two members. -/
theorem fieldsOnce_present {names : List String} (values : List (Option Json))
    (h : (names.filterMap (fieldOf? fields)).Nodup) : FieldsOnce fields (present names values) := by
  have hfields : (present names values).filterMap (fun member => fieldOf? fields member.1) =
      ((present names values).map Prod.fst).filterMap (fieldOf? fields) := by
    rw [List.filterMap_map]
    rfl
  rw [FieldsOnce, hfields]
  exact h.sublist ((map_fst_present_sublist names values).filterMap _)

/-- A member of no name of a field leaves the value of the field alone. -/
theorem valueOf?_present_cons_of_not_mem {name : String} {others : FieldNames}
    (h : name ∉ others) (names : List String) (value : Option Json) (values : List (Option Json)) :
    valueOf? others (present (name :: names) (value :: values)) =
      valueOf? others (present names values) := by
  cases value with
  | none => rfl
  | some value =>
      have hskip : ¬ (others.contains name = true) := h ∘ List.contains_iff_mem.mp
      have hfind := List.find?_cons_of_neg (l := present names values)
        (p := fun member => others.contains member.1) (a := (name, value)) hskip
      rw [present, valueOf?, hfind, valueOf?]

/-- A member that is the only one of a field gives the field its value. -/
theorem valueOf?_present_cons_of_mem {name : String} {others : FieldNames} (hname : name ∈ others)
    {names : List String} (hnames : ∀ other ∈ names, other ∉ others) (value : Option Json)
    (values : List (Option Json)) :
    valueOf? others (present (name :: names) (value :: values)) = value := by
  cases value with
  | some value =>
      have hfind := List.find?_cons_of_pos (l := present names values)
        (p := fun member => others.contains member.1) (a := (name, value))
        (List.contains_iff_mem.mpr hname)
      rw [present, valueOf?, hfind]
      rfl
  | none =>
      rw [present, valueOf?, Option.map_eq_none_iff, List.find?_eq_none]
      intro member hmember hmem
      have hother := (map_fst_present_sublist names values).subset (List.mem_map_of_mem hmember)
      exact hnames member.1 hother (List.contains_iff_mem.mp hmem)

/-- If each field has one of the names, the values of the members are those of the fields. -/
theorem map_valueOf?_present {names : List String} {values : List (Option Json)}
    (hfields : FieldsApart fields)
    (hnames : List.Forall₂ (fun name others => name ∈ others) names fields)
    (hlength : values.length = fields.length) :
    fields.map (fun others => valueOf? others (present names values)) = values := by
  induction hnames generalizing values with
  | nil => exact (List.length_eq_zero_iff.mp hlength).symm
  | @cons name first names fields hname hnames ih =>
      obtain ⟨value, values, rfl⟩ := List.exists_cons_of_length_eq_add_one hlength
      rw [FieldsApart, List.pairwise_cons] at hfields
      have hrest : fields.map (fun others =>
          valueOf? others (present (name :: names) (value :: values))) = values := by
        refine (List.map_congr_left fun others hothers => ?_).trans
          (ih hfields.2 (Nat.succ.inj hlength))
        exact valueOf?_present_cons_of_not_mem (hfields.1 others hothers name hname) _ _ _
      -- the names behind belong to other fields
      have hapart : ∀ other ∈ names, other ∉ first := by
        intro other hother hmem
        obtain ⟨i, hi, rfl⟩ := List.mem_iff_getElem.mp hother
        have hlt : i < fields.length := hnames.length_eq ▸ hi
        exact hfields.1 fields[i] (List.getElem_mem hlt) _ hmem (hnames.get hi hlt)
      rw [List.map_cons, valueOf?_present_cons_of_mem hname hapart, hrest]

/-! ## Values in slots -/

/-- What a slot holds of a value that may not be there: nothing, null, or the value. -/
inductive WritesOptional {α : Type} (writes : α → Json → Prop) : Option α → Option Json → Prop
  | absent : WritesOptional writes none none
  | null : WritesOptional writes none (some .null)
  | value {a : α} {json : Json} : writes a json → WritesOptional writes (some a) (some json)

/-- What a slot holds of a list: its items, or nothing if there are none. -/
inductive WritesList {α : Type} (writes : α → Json → Prop) : List α → Option Json → Prop
  | absent : WritesList writes [] none
  | items {values : List α} {items : List Json} : List.Forall₂ writes values items →
      WritesList writes values (some (.array items))

section Slots

variable {α : Type} {reader : Reader α} {writes : α → Json → Prop} {depth : Nat}

/-- A list is read item by item. -/
theorem reads_listOf_of_forall₂ (hreads : ∀ a json, writes a json → Reads reader (ofJson json) a)
    {values : List α} {items : List Json} (h : List.Forall₂ writes values items) :
    Reads (listOf reader) (ofJson (.array items)) values := by
  have hitems : ∀ depth, depthOfItems (ofItems items) ≤ depth →
      Returns (depth + 1) ((ofItems items).mapM reader) values := by
    induction h with
    | nil => exact fun _ _ => .pure []
    | @cons a json values items hwrites _ ih =>
        intro depth hdepth
        rw [ofItems, depthOfItems, Nat.max_le] at hdepth
        rw [ofItems, List.mapM_cons]
        exact ((hreads a json hwrites).mono (Nat.succ_le_succ hdepth.1)).bind
          ((ih depth hdepth.2).bind (.pure _))
  rw [Reads, listOf, content_ofJson, pure_bind]
  exact (hitems _ (Nat.le_refl _)).within

/-- A value that may not be there is read from its slot. -/
theorem WritesOptional.returns {value : Option α} {slot : Option Json}
    (h : WritesOptional writes value slot)
    (hreads : ∀ a json, writes a json → Reads reader (ofJson json) a ∧ json ≠ .null)
    (hdepth : ∀ json ∈ slot, (ofJson json).depth < depth) :
    Returns depth (maybe reader (slot.map ofJson)) value := by
  cases h with
  | absent => exact .pure none
  | null => exact fun _ _ _ => rfl
  | value hwrites =>
      obtain ⟨hread, hnull⟩ := hreads _ _ hwrites
      exact (reads_optional hread hnull).mono (hdepth _ rfl)

/-- A list is read from its slot. -/
theorem WritesList.returns {values : List α} {slot : Option Json}
    (h : WritesList writes values slot)
    (hreads : ∀ a json, writes a json → Reads reader (ofJson json) a)
    (hdepth : ∀ json ∈ slot, (ofJson json).depth < depth) :
    Returns depth (orElse [] (listOf reader) (slot.map ofJson)) values := by
  cases h with
  | absent => exact .pure []
  | items hitems => exact (reads_listOf_of_forall₂ hreads hitems).mono (hdepth _ rfl)

end Slots

end AnnotatedApi.Datum
