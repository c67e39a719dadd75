import AnnotatedApi.Proofs.Datum.Yields

/-! # Objects with one field changed

The members of an object are put into slots before any of them is read. When one member is added or
its value replaced, only the slot of its field differs, so what is read from the object changes as
what is read from this slot does. -/

namespace AnnotatedApi.Datum

open Read (Relates)

/-! ## Placing the members of an object -/

/-- The field of a name. -/
def fieldOf? (fields : List FieldNames) (name : String) : Option Nat :=
  fields.findIdx? fun names => names.contains name

/-- The slots after a member was put into its slot, which has to be free. -/
def place? (fields : List FieldNames) (slots : List (Option Datum)) (member : String × Json) :
    Option (List (Option Datum)) :=
  match fieldOf? fields member.1 with
  | none => some slots
  | some i =>
      match slots[i]? with
      | some none => some (slots.set i (some (ofJson member.2)))
      | _ => none

variable {fields : List FieldNames} {slots filled : List (Option Datum)}
variable {members : List (String × Json)} {i : Nat}

/-- A member of another field leaves a slot alone, and does the same whatever the slot holds. -/
theorem place?_of_ne {member : String × Json} (hfield : fieldOf? fields member.1 ≠ some i)
    (h : place? fields slots member = some filled) (slot : Option Datum) :
    filled[i]? = slots[i]? ∧
      place? fields (slots.set i slot) member = some (filled.set i slot) := by
  rw [place?] at h ⊢
  split at h
  · rw [Option.some.injEq] at h
    rw [h]
    exact ⟨rfl, rfl⟩
  · next j hj =>
    have hne : j ≠ i := fun heq => hfield (heq ▸ hj)
    split at h
    · next hfree =>
      rw [Option.some.injEq] at h
      rw [← h, List.getElem?_set_ne hne, List.getElem?_set_ne (Ne.symm hne), hfree,
        List.set_comm _ _ hne.symm]
      exact ⟨rfl, rfl⟩
    · exact absurd h.symm (Option.some_ne_none _)

/-- Members of other fields leave a slot alone, and do the same whatever the slot holds. -/
theorem foldlM_place?_of_ne (hfields : ∀ member ∈ members, fieldOf? fields member.1 ≠ some i)
    (h : members.foldlM (place? fields) slots = some filled) (slot : Option Datum) :
    filled[i]? = slots[i]? ∧
      members.foldlM (place? fields) (slots.set i slot) = some (filled.set i slot) := by
  induction members generalizing slots with
  | nil =>
      have heq : slots = filled := Option.some.inj h
      rw [heq]
      exact ⟨rfl, rfl⟩
  | cons member rest ih =>
      rw [List.foldlM_cons] at h ⊢
      obtain ⟨between, hfirst, hrest⟩ := Option.bind_eq_some_iff.mp h
      rw [List.forall_mem_cons] at hfields
      obtain ⟨hkept, hfirst'⟩ := place?_of_ne hfields.1 hfirst slot
      obtain ⟨hkept', hrest'⟩ := ih hfields.2 hrest
      refine ⟨hkept'.trans hkept, ?_⟩
      rw [hfirst']
      exact hrest'

/-- No member can be put into a slot that is taken. -/
theorem fieldOf?_ne_of_taken {d : Datum} (htaken : slots[i]? = some (some d))
    (h : members.foldlM (place? fields) slots = some filled) :
    ∀ member ∈ members, fieldOf? fields member.1 ≠ some i := by
  induction members generalizing slots with
  | nil => exact List.forall_mem_nil _
  | cons member rest ih =>
      rw [List.foldlM_cons] at h
      obtain ⟨between, hfirst, hrest⟩ := Option.bind_eq_some_iff.mp h
      -- a member of the field would not have been placed
      have hfield : fieldOf? fields member.1 ≠ some i := by
        intro heq
        rw [place?, heq] at hfirst
        dsimp only at hfirst
        rw [htaken] at hfirst
        exact absurd hfirst.symm (Option.some_ne_none _)
      rw [List.forall_mem_cons]
      refine ⟨hfield, ih ?_ hrest⟩
      rw [(place?_of_ne hfield hfirst none).1]
      exact htaken

/-- A member whose field is free takes the slot. -/
theorem place?_of_free {member : String × Json} (hfield : fieldOf? fields member.1 = some i)
    (hfree : slots[i]? = some none) :
    place? fields slots member = some (slots.set i (some (ofJson member.2))) := by
  rw [place?, hfield]
  dsimp only
  rw [hfree]

/-- A member that was put into its slot found the slot free. -/
theorem free_of_place? {member : String × Json} (hfield : fieldOf? fields member.1 = some i)
    (h : place? fields slots member = some filled) : slots[i]? = some none := by
  rw [place?, hfield] at h
  dsimp only at h
  split at h
  · assumption
  · exact absurd h.symm (Option.some_ne_none _)

/-! ## One slot changed -/

/-- Of two objects with members for the same fields, the slot of one field differs: it holds `slot`
for the first object and the datum of `value` for the second. -/
def Refills (fields : List FieldNames) (i : Nat) (slot : Option Datum) (value : Json)
    (members members' : List (String × Json)) : Prop :=
  ∀ filled, members.foldlM (place? fields) (List.replicate fields.length none) = some filled →
    filled[i]? = some slot ∧
      members'.foldlM (place? fields) (List.replicate fields.length none) =
        some (filled.set i (some (ofJson value)))

variable {before after : List (String × Json)} {key : String}

/-- The value of a member is replaced. -/
theorem refills_of_replaced (hkey : fieldOf? fields key = some i) (value value' : Json) :
    Refills fields i (some (ofJson value)) value' (before ++ (key, value) :: after)
      (before ++ (key, value') :: after) := by
  intro filled h
  rw [List.foldlM_append] at h ⊢
  obtain ⟨start, hbefore, h⟩ := Option.bind_eq_some_iff.mp h
  rw [List.foldlM_cons] at h
  obtain ⟨between, hplace, hafter⟩ := Option.bind_eq_some_iff.mp h
  have hfree : start[i]? = some none := free_of_place? hkey hplace
  obtain ⟨hlt, -⟩ := List.getElem?_eq_some_iff.mp hfree
  have hbetween : between = start.set i (some (ofJson value)) := by
    rw [place?_of_free hkey hfree, Option.some.injEq] at hplace
    exact hplace.symm
  have htaken : between[i]? = some (some (ofJson value)) := by
    rw [hbetween, List.getElem?_set_self hlt]
  -- the members behind are of other fields, as this one is taken
  obtain ⟨hkept, hafter'⟩ := foldlM_place?_of_ne (fieldOf?_ne_of_taken htaken hafter) hafter
    (some (ofJson value'))
  refine ⟨hkept.trans htaken, ?_⟩
  rw [hbetween, List.set_set] at hafter'
  rw [hbefore, Option.bind_eq_bind, Option.bind_some, List.foldlM_cons,
    place?_of_free hkey hfree, Option.bind_eq_bind, Option.bind_some]
  exact hafter'

/-- A member of a field that no other member belongs to is added. -/
theorem refills_of_added (hkey : fieldOf? fields key = some i)
    (hfields : ∀ member ∈ before ++ after, fieldOf? fields member.1 ≠ some i) (value : Json) :
    Refills fields i none value (before ++ after) (before ++ (key, value) :: after) := by
  intro filled h
  rw [List.forall_mem_append] at hfields
  rw [List.foldlM_append] at h ⊢
  obtain ⟨start, hbefore, hafter⟩ := Option.bind_eq_some_iff.mp h
  have hlt : i < fields.length := by
    obtain ⟨hlt, -⟩ := List.findIdx?_eq_some_iff_getElem.mp hkey
    exact hlt
  -- no member in front is of this field, so its slot is still free
  have hfree : start[i]? = some none := by
    rw [(foldlM_place?_of_ne hfields.1 hbefore none).1, List.getElem?_replicate, if_pos hlt]
  obtain ⟨hkept, hafter'⟩ := foldlM_place?_of_ne hfields.2 hafter (some (ofJson value))
  refine ⟨hkept.trans hfree, ?_⟩
  rw [hbefore, Option.bind_eq_bind, Option.bind_some, List.foldlM_cons,
    place?_of_free hkey hfree, Option.bind_eq_bind, Option.bind_some]
  exact hafter'

/-! ## Reading the slots -/

/-- Each member is put into its slot. -/
theorem result_placeMember (member : String × Json) (setting : ReadSetting) (jumps : Nat) :
    (placeMember fields slots (.text member.1, ofJson member.2)).result setting jumps =
      (place? fields slots member).map fun filled => (filled, jumps) := by
  have hfield : (readField fields (.text member.1)).result setting jumps =
      some (fieldOf? fields member.1, jumps) := rfl
  rw [placeMember, Read.result_bind, hfield, place?, Option.bind_some]
  cases fieldOf? fields member.1 with
  | none => rfl
  | some i =>
      dsimp only
      rcases slots[i]? with _ | _ | _ <;> rfl

/-- The members of an object are put into their slots. -/
theorem result_foldlM_placeMember (setting : ReadSetting) (jumps : Nat) :
    ((ofMembers members).foldlM (placeMember fields) slots).result setting jumps =
      (members.foldlM (place? fields) slots).map fun filled => (filled, jumps) := by
  induction members generalizing slots with
  | nil => rfl
  | cons member rest ih =>
      rw [ofMembers, List.foldlM_cons, List.foldlM_cons, Read.result_bind, result_placeMember]
      cases hplace : place? fields slots member with
      | none => rfl
      | some filled => exact ih

/-- An object is read by what its slots are read as, on one level less. -/
theorem result_recordOf (build : List (Option Datum) → Read α) (levels jumps : Nat) :
    (recordOf fields build (ofJson (.object members))).result ⟨levels + 1, []⟩ jumps =
      (members.foldlM (place? fields) (List.replicate fields.length none)).bind fun filled =>
        (build filled).result ⟨levels, []⟩ jumps := by
  have hwithin : (recordOf fields build (ofJson (.object members))).result ⟨levels + 1, []⟩ jumps =
      ((ofMembers members).foldlM (placeMember fields) (List.replicate fields.length none) >>=
        build).result ⟨levels, []⟩ jumps := rfl
  rw [hwithin, Read.result_bind, result_foldlM_placeMember]
  cases members.foldlM (place? fields) (List.replicate fields.length none) <;> rfl

/-- What is read from an object with one slot changed is related to what was read before, if what is
built from the slots is. -/
theorem relates_of_refills {build : List (Option Datum) → Read α} {R : α → α → Prop}
    {slot : Option Datum} {value : Json} {members' : List (String × Json)} {levels levels' : Nat}
    (hrefills : Refills fields i slot value members members')
    (hbuild : ∀ filled, filled[i]? = some slot →
      Relates ⟨levels, []⟩ ⟨levels', []⟩ R (build filled)
        (build (filled.set i (some (ofJson value))))) :
    Relates ⟨levels + 1, []⟩ ⟨levels' + 1, []⟩ R (recordOf fields build (ofJson (.object members)))
      (recordOf fields build (ofJson (.object members'))) := by
  intro jumps r hr
  rw [result_recordOf] at hr
  obtain ⟨filled, hfilled, hr⟩ := Option.bind_eq_some_iff.mp hr
  obtain ⟨hslot, hfilled'⟩ := hrefills filled hfilled
  obtain ⟨a', hr', hR⟩ := hbuild filled hslot jumps r hr
  refine ⟨a', ?_, hR⟩
  rw [result_recordOf, hfilled', Option.bind_some]
  exact hr'

end AnnotatedApi.Datum
