import AnnotatedApi.Proofs.Datum.Reading

/-! # Reading back records

A record is written with the members of those of its slots that are filled, each under the first
name of its field. Reading it by its fields fills just these slots again, if the first name of each
field is a name of no earlier field. -/

namespace AnnotatedApi.Datum

open Read (Returns)

/-! ## Slots -/

/-- The member of a slot, if the slot is filled. -/
def slotMember (name : String) (slot : Option Json) : List (String × Json) :=
  match slot with
  | some value => [(name, value)]
  | none => []

@[simp] theorem slotMember_none (name : String) : slotMember name none = [] := rfl

@[simp] theorem slotMember_some (name : String) (value : Json) :
    slotMember name (some value) = [(name, value)] := rfl

/-- The members of the slots that are filled. -/
def slotMembers : List String → List (Option Json) → List (String × Json)
  | name :: names, slot :: slots => slotMember name slot ++ slotMembers names slots
  | _, _ => []

/-- The data of slots. -/
def slotData (slots : List (Option Json)) : List (Option Datum) :=
  slots.map (Option.map ofJson)

/-- The names that fields are written under. -/
def writtenNames (fields : List FieldNames) : List String :=
  fields.map fun names => names.headD ""

/-- Each field is found by the name that it is written under. -/
def Separated (fields : List FieldNames) : Prop :=
  ∀ i < fields.length, fields.findIdx? (fun names =>
    names.contains ((writtenNames fields).getD i "")) = some i

instance (fields : List FieldNames) : Decidable (Separated fields) :=
  inferInstanceAs (Decidable (∀ i < fields.length, _))

/-- What is in a slot is not deeper than the record of the slots. -/
theorem depth_le_of_slot {value : Json} {names : List String} {slots : List (Option Json)}
    (hlength : slots.length = names.length) (h : some value ∈ slots) :
    (ofJson value).depth ≤ depthOfMembers (ofMembers (slotMembers names slots)) := by
  -- the member of the slot has the name that stands opposite to it
  have hmem : ∃ name, (name, value) ∈ slotMembers names slots := by
    induction slots generalizing names with
    | nil => exact absurd h List.not_mem_nil
    | cons slot rest ih =>
        cases names with
        | nil => exact absurd hlength (Nat.succ_ne_zero _)
        | cons name names =>
            rw [slotMembers]
            rcases List.mem_cons.mp h with heq | hrest
            · refine ⟨name, List.mem_append_left _ ?_⟩
              rw [← heq]
              exact List.mem_singleton_self _
            · obtain ⟨other, hother⟩ := ih (Nat.succ.inj hlength) hrest
              exact ⟨other, List.mem_append_right _ hother⟩
  obtain ⟨name, hname⟩ := hmem
  exact depth_le_of_mem_ofMembers hname

/-! ## Filling slots -/

/-- A member of a field whose slot is free fills the slot. -/
theorem returns_placeMember {fields : List FieldNames} {name : String} {d : Datum}
    {front back : List (Option Datum)}
    (hfield : (fields.findIdx? fun names => names.contains name) = some front.length) :
    Returns 0 (placeMember fields (front ++ none :: back) (.text name, d))
      (front ++ some d :: back) := by
  have hread : Returns 0 (readField fields (.text name)) (some front.length) := by
    rw [← hfield]
    exact fun _ _ _ => rfl
  refine hread.bind ?_
  have hslot : (front ++ none :: back)[front.length]? = some none := by simp
  have hset : (front ++ none :: back).set front.length (some d) = front ++ some d :: back := by
    simp
  simp only [hslot, hset]
  exact .pure _

/-- The members of slots fill the slots, whatever was filled before. -/
theorem returns_foldlM_placeMember {fields : List FieldNames} {names : List String}
    {front : List (Option Datum)} {slots : List (Option Json)}
    (hlength : slots.length = names.length)
    (hfields : ∀ i name, names[i]? = some name →
      (fields.findIdx? fun alternatives => alternatives.contains name) = some (front.length + i)) :
    Returns 0 ((ofMembers (slotMembers names slots)).foldlM (placeMember fields)
        (front ++ List.replicate slots.length none)) (front ++ slotData slots) := by
  -- one slot after the other; what is filled already stands in front
  induction slots generalizing names front with
  | nil =>
      have hnil : slotMembers names [] = [] := by cases names <;> rfl
      rw [hnil]
      exact .pure _
  | cons slot rest ih =>
      cases names with
      | nil => exact absurd hlength (Nat.succ_ne_zero _)
      | cons name names =>
          have hname : (fields.findIdx? fun alternatives => alternatives.contains name) =
              some front.length := hfields 0 name rfl
          have hrest : ∀ d : Option Datum,
              Returns 0 ((ofMembers (slotMembers names rest)).foldlM (placeMember fields)
                (front ++ d :: List.replicate rest.length none))
                (front ++ d :: slotData rest) := by
            intro d
            have hlater := @ih names (front ++ [d]) (Nat.succ.inj hlength) ?_
            · rw [List.append_assoc, List.append_assoc] at hlater
              exact hlater
            · intro i later hlater
              rw [hfields (i + 1) later hlater, List.length_append, List.length_singleton]
              congr 1
              omega
          rw [slotMembers]
          cases slot with
          | none => exact hrest none
          | some value =>
              refine Returns.bind (returns_placeMember hname) ?_
              exact hrest (some (ofJson value))

/-- A record that is written by its slots is read by its slots. -/
theorem reads_recordOf {fields : List FieldNames} {build : List (Option Datum) → Read α} {a : α}
    {slots : List (Option Json)} (hfields : Separated fields)
    (hlength : slots.length = fields.length)
    (hbuild : ∀ depth, (∀ slot ∈ slots, ∀ value ∈ slot, (ofJson value).depth < depth) →
      Returns depth (build (slotData slots)) a) :
    Reads (recordOf fields build)
      (ofJson (.object (slotMembers (writtenNames fields) slots))) a := by
  have hnames : slots.length = (writtenNames fields).length := by
    rw [hlength, writtenNames, List.length_map]
  set data := ofMembers (slotMembers (writtenNames fields) slots) with hdata
  have hfill : Returns 0 (data.foldlM (placeMember fields) (List.replicate fields.length none))
      (slotData slots) := by
    rw [← hlength]
    refine @returns_foldlM_placeMember fields _ [] slots hnames fun i name hname => ?_
    -- a name that is written belongs to a field, and no earlier field has it
    have hlt : i < fields.length := by
      have := (List.getElem?_eq_some_iff.mp hname).1
      omega
    have hfound := hfields i hlt
    rw [List.getD_eq_getElem?_getD, hname] at hfound
    rw [List.length_nil, Nat.zero_add]
    exact hfound
  have hread : Returns (depthOfMembers data + 1) (build (slotData slots)) a := by
    refine hbuild _ fun slot hslot value hvalue => ?_
    rw [hvalue] at hslot
    exact Nat.lt_succ_of_le (depth_le_of_slot hnames hslot)
  rw [Reads, recordOf, content_ofJson, pure_bind]
  exact ((hfill.mono (Nat.zero_le _)).bind hread).within

/-- A record none of whose members belongs to a field is read with all slots free. -/
theorem result_recordOf_of_unknown {fields : List FieldNames} {build : List (Option Datum) → Read α}
    {members : List (String × Json)}
    (h : ∀ member ∈ members, (fields.findIdx? fun names => names.contains member.1) = none)
    (setting : ReadSetting) (jumps : Nat) :
    (recordOf fields build (ofJson (.object members))).result setting jumps =
      (within (build (List.replicate fields.length none))).result setting jumps := by
  -- such a member is passed over, whatever the slots hold
  have hskip : ∀ slots,
      Returns 0 ((ofMembers members).foldlM (placeMember fields) slots) slots := by
    intro slots
    induction members with
    | nil => exact .pure slots
    | cons member rest ih =>
        obtain ⟨name, value⟩ := member
        have hfirst : Returns 0 (placeMember fields slots (.text name, ofJson value)) slots := by
          have hread : Returns 0 (readField fields (.text name)) none := by
            rw [← h _ List.mem_cons_self]
            exact fun _ _ _ => rfl
          exact hread.bind (.pure slots)
        exact hfirst.bind (ih fun other hother => h other (List.mem_cons_of_mem _ hother))
  rw [recordOf, content_ofJson, pure_bind]
  obtain ⟨levels, nodes⟩ := setting
  cases levels with
  | zero => rfl
  | succ levels =>
      show ((ofMembers members).foldlM (placeMember fields) _ >>= build).result
        ⟨levels, nodes⟩ jumps = (build _).result ⟨levels, nodes⟩ jumps
      rw [Read.result_bind, hskip _ ⟨levels, nodes⟩ jumps (Nat.zero_le _)]
      rfl

/-! ## Reading slots -/

section Slots

variable {reader : Reader α} {toJson : α → Json} {depth : Nat}

/-- The slot of a value that may not be there. -/
abbrev optionalSlot (toJson : α → Json) (value : Option α) : Option Json :=
  value.map toJson

/-- The slot of a list that is left out when it is empty. -/
abbrev listSlot (toJson : List α → Json) (values : List α) : Option Json :=
  if values.isEmpty then none else some (toJson values)

/-- A field that has to be there is read back. -/
theorem returns_need {a : α} (h : ReadsBack toJson reader a)
    (hdepth : ∀ value ∈ some (toJson a), (ofJson value).depth < depth) :
    Returns depth (need reader ((some (toJson a)).map ofJson)) a :=
  Returns.bind (.pure (ofJson (toJson a))) (Returns.mono h (hdepth _ rfl))

/-- A field with a default that is there is read back. -/
theorem returns_orElse {a default : α} (h : ReadsBack toJson reader a)
    (hdepth : ∀ value ∈ some (toJson a), (ofJson value).depth < depth) :
    Returns depth (orElse default reader ((some (toJson a)).map ofJson)) a :=
  Returns.mono h (hdepth _ rfl)

/-- A field that may not be there is read back, since its value is not written as null. -/
theorem returns_maybe {value : Option α}
    (h : ∀ a ∈ value, ReadsBack toJson reader a ∧ toJson a ≠ .null)
    (hdepth : ∀ json ∈ optionalSlot toJson value, (ofJson json).depth < depth) :
    Returns depth (maybe reader ((optionalSlot toJson value).map ofJson)) value := by
  cases value with
  | none => exact .pure none
  | some a =>
      obtain ⟨hreads, hnull⟩ := h a rfl
      exact (reads_optional hreads hnull).mono (hdepth _ rfl)

/-- A list that is left out when empty is read back. -/
theorem returns_listSlot {reader : Reader (List α)} {toJson : List α → Json} {values : List α}
    (h : ReadsBack toJson reader values)
    (hdepth : ∀ json ∈ listSlot toJson values, (ofJson json).depth < depth) :
    Returns depth (orElse [] reader ((listSlot toJson values).map ofJson)) values := by
  cases values with
  | nil => exact .pure []
  | cons first rest => exact Returns.mono h (hdepth _ rfl)

/-- A text that may not be there is read back. -/
theorem returns_maybe_text {value : Option String}
    (hdepth : ∀ json ∈ optionalSlot .text value, (ofJson json).depth < depth) :
    Returns depth (maybe readText ((optionalSlot .text value).map ofJson)) value :=
  returns_maybe (fun text _ => ⟨reads_readText text, Json.noConfusion⟩) hdepth

/-- A boolean that may not be there is read back. -/
theorem returns_maybe_bool {value : Option Bool}
    (hdepth : ∀ json ∈ optionalSlot .bool value, (ofJson json).depth < depth) :
    Returns depth (maybe readBool ((optionalSlot .bool value).map ofJson)) value :=
  returns_maybe (fun value _ => ⟨reads_readBool value, Json.noConfusion⟩) hdepth

/-- Texts that are left out when there are none are read back. -/
theorem returns_texts {values : List String}
    (hdepth : ∀ json ∈ listSlot .texts values, (ofJson json).depth < depth) :
    Returns depth (orElse [] readTexts ((listSlot .texts values).map ofJson)) values :=
  returns_listSlot (reads_listOf fun text _ => reads_readText text) hdepth

end Slots

end AnnotatedApi.Datum
