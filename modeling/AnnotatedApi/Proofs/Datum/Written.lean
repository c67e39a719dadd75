import AnnotatedApi.Files.Format
import AnnotatedApi.Proofs.Datum.Domain

/-! # Data of JSON texts

JSON has neither aliases nor tags nor scalars without quotes, and each of its numbers is finite or
too large. Among such data nothing but null is read as null, so where null is allowed and means that
there is no value, no value that is read is null. -/

namespace AnnotatedApi.Datum

open Read (Yields Agrees)

/-- A datum that a JSON value can be written as. -/
inductive IsWritten : Datum → Prop
  | null : IsWritten .null
  | bool (value : Bool) : IsWritten (.bool value)
  | number (value : Number) : IsWritten (.number value)
  | text (value : String) : IsWritten (.text value)
  | broken : IsWritten .broken
  | list {positional : Bool} {items : List Datum} (hitems : ∀ item ∈ items, IsWritten item) :
      IsWritten (.list positional items)
  | record {members : List (Datum × Datum)} (hkeys : ∀ member ∈ members, IsWritten member.1)
      (hvalues : ∀ member ∈ members, IsWritten member.2) : IsWritten (.record members)

/-! ## What is written -/

/-- A text is written, or it is broken. -/
theorem isWritten_ofText (value : Option String) : (ofText value).IsWritten := by
  cases value with
  | none => exact .broken
  | some value => exact .text value

mutual

/-- A JSON value as it is written gives such a datum. -/
theorem isWritten_ofWritten : ∀ value : Json.Written, (ofWritten value).IsWritten
  | .null => .null
  | .bool value => .bool value
  | .number (some value) => .number value
  | .number none => .broken
  | .text value => isWritten_ofText value
  | .array items => .list (isWritten_ofWrittenItems items)
  | .object members => by
      have hmembers := isWritten_ofWrittenMembers members
      exact .record (fun member hmember => (hmembers member hmember).1)
        fun member hmember => (hmembers member hmember).2

/-- So do the items of an array. -/
theorem isWritten_ofWrittenItems : ∀ items : List Json.Written,
    ∀ item ∈ ofWrittenItems items, item.IsWritten
  | [] => List.forall_mem_nil _
  | item :: rest =>
      List.forall_mem_cons.mpr ⟨isWritten_ofWritten item, isWritten_ofWrittenItems rest⟩

/-- So do the names and the values of the members of an object. -/
theorem isWritten_ofWrittenMembers : ∀ members : List (Option String × Json.Written),
    ∀ member ∈ ofWrittenMembers members, member.1.IsWritten ∧ member.2.IsWritten
  | [] => List.forall_mem_nil _
  | (name, value) :: rest =>
      List.forall_mem_cons.mpr
        ⟨⟨isWritten_ofText name, isWritten_ofWritten value⟩, isWritten_ofWrittenMembers rest⟩

end

/-- A scalar that stands for a value gives the datum of the value. -/
theorem ofWritten_of_scalar {written : Json.Written} {value : Json} {depth : Nat}
    (harray : ∀ items, written ≠ .array items) (hobject : ∀ members, written ≠ .object members)
    (h : written.value? depth = some value) :
    ofWritten written = ofJson value ∧ (ofJson value).depth = 0 := by
  cases written with
  | null | bool =>
      rw [Json.Written.value?, Option.some.injEq] at h
      rw [← h]
      exact ⟨rfl, rfl⟩
  | number number =>
      rw [Json.Written.value?] at h
      obtain ⟨n, rfl, rfl⟩ := Option.map_eq_some_iff.mp h
      exact ⟨rfl, rfl⟩
  | text text =>
      rw [Json.Written.value?] at h
      obtain ⟨t, rfl, rfl⟩ := Option.map_eq_some_iff.mp h
      exact ⟨rfl, rfl⟩
  | array items => exact absurd rfl (harray items)
  | object members => exact absurd rfl (hobject members)

section Values

variable {depth : Nat}

/-- A written value that stands for a value has its datum, where nesting is limited. -/
abbrev StandsFor (depth : Nat) (written : Json.Written) : Prop :=
  ∀ value, written.value? depth = some value →
    ofWritten written = ofJson value ∧ (ofJson value).depth ≤ depth

/-- The items of an array have the data of the items that they stand for. -/
theorem ofWrittenItems_of_value? (hitem : ∀ written, StandsFor depth written)
    {items : List Json.Written} {values : List Json}
    (h : items.mapM (Json.Written.value? depth) = some values) :
    ofWrittenItems items = ofItems values ∧ depthOfItems (ofItems values) ≤ depth := by
  induction items generalizing values with
  | nil =>
      rw [List.mapM_nil] at h
      cases h
      exact ⟨rfl, Nat.zero_le _⟩
  | cons item items ih =>
      rw [List.mapM_cons] at h
      obtain ⟨first, hfirst, h⟩ := Option.bind_eq_some_iff.mp h
      obtain ⟨rest, hrest, h⟩ := Option.bind_eq_some_iff.mp h
      cases h
      obtain ⟨hdatum, hdepth⟩ := hitem item first hfirst
      obtain ⟨hdata, hdepths⟩ := ih hrest
      rw [ofWrittenItems, ofItems, hdatum, hdata, depthOfItems]
      exact ⟨rfl, Nat.max_le.mpr ⟨hdepth, hdepths⟩⟩

/-- The members of an object have the data of the members that they stand for. -/
theorem ofWrittenMembers_of_value? (hitem : ∀ written, StandsFor depth written)
    {members : List (Option String × Json.Written)} {values : List (String × Json)}
    (h : (members.mapM fun (member : Option String × Json.Written) => do
      let name ← member.1
      let value ← member.2.value? depth
      return (name, value)) = some values) :
    ofWrittenMembers members = ofMembers values ∧ depthOfMembers (ofMembers values) ≤ depth := by
  induction members generalizing values with
  | nil =>
      rw [List.mapM_nil] at h
      cases h
      exact ⟨rfl, Nat.zero_le _⟩
  | cons member members ih =>
      obtain ⟨name?, written⟩ := member
      rw [List.mapM_cons] at h
      obtain ⟨first, hfirst, h⟩ := Option.bind_eq_some_iff.mp h
      obtain ⟨rest, hrest, h⟩ := Option.bind_eq_some_iff.mp h
      cases h
      obtain ⟨name, hname, hfirst⟩ := Option.bind_eq_some_iff.mp hfirst
      obtain ⟨value, hvalue, hfirst⟩ := Option.bind_eq_some_iff.mp hfirst
      cases hfirst
      obtain rfl : name? = some name := hname
      obtain ⟨hdatum, hdepth⟩ := hitem written value hvalue
      obtain ⟨hdata, hdepths⟩ := ih hrest
      rw [ofWrittenMembers, ofMembers, hdatum, hdata, depthOfMembers]
      refine ⟨rfl, Nat.max_le.mpr ⟨Nat.max_le.mpr ⟨Nat.zero_le _, hdepth⟩, hdepths⟩⟩

/-- The datum of a JSON value as it is written is that of the value that it stands for, and this
nests no deeper than the levels say. -/
theorem ofWritten_of_value? (depth : Nat) (written : Json.Written) : StandsFor depth written := by
  induction depth generalizing written with
  | zero =>
      intro value h
      -- where no level is left, lists and objects have no value
      have harray : ∀ items, written ≠ .array items := by
        rintro items rfl
        exact absurd h.symm (Option.some_ne_none value)
      have hobject : ∀ members, written ≠ .object members := by
        rintro members rfl
        exact absurd h.symm (Option.some_ne_none value)
      obtain ⟨hdatum, hdepth⟩ := ofWritten_of_scalar harray hobject h
      exact ⟨hdatum, Nat.le_of_eq hdepth⟩
  | succ depth ih =>
      intro value h
      cases written with
      | array items =>
          rw [Json.Written.value?] at h
          obtain ⟨values, hvalues, rfl⟩ := Option.map_eq_some_iff.mp h
          obtain ⟨hdata, hdepth⟩ := ofWrittenItems_of_value? ih hvalues
          rw [ofWritten, ofJson, hdata]
          exact ⟨rfl, Nat.succ_le_succ hdepth⟩
      | object members =>
          rw [Json.Written.value?] at h
          obtain ⟨values, hvalues, rfl⟩ := Option.map_eq_some_iff.mp h
          obtain ⟨hdata, hdepth⟩ := ofWrittenMembers_of_value? ih hvalues
          rw [ofWritten, ofJson, hdata]
          exact ⟨rfl, Nat.succ_le_succ hdepth⟩
      | null | bool | number | text =>
          obtain ⟨hdatum, hdepth⟩ := ofWritten_of_scalar (fun _ => Json.Written.noConfusion)
            (fun _ => Json.Written.noConfusion) h
          exact ⟨hdatum, hdepth ▸ Nat.zero_le _⟩

end Values

/-- A JSON text is read as the datum of its value, which nests no deeper than a text may. -/
theorem read?_json_of_parse? {text : String} {value : Json} (h : Json.parse? text = some value) :
    DataFormat.json.read? text = some { root := ofJson value, maxDepth := Json.maxDepth } ∧
      (ofJson value).depth ≤ Json.maxDepth := by
  obtain ⟨written, hwritten, hvalue⟩ := Option.bind_eq_some_iff.mp h
  obtain ⟨hdatum, hdepth⟩ := ofWritten_of_value? Json.maxDepth written value hvalue
  refine ⟨?_, hdepth⟩
  rw [DataFormat.read?, hwritten, ← hdatum]
  rfl

/-! ## Reading -/

/-- Reading stays among such data. -/
theorem closed_isWritten : Closed IsWritten where
  tagged h := nomatch h
  items h := match h with | .list hitems => hitems
  keys h := match h with | .record hkeys _ => hkeys
  values h := match h with | .record _ hvalues => hvalues
  list h := .list h
  record h := .record (fun member hmember => (h member hmember).1)
    fun member hmember => (h member hmember).2
  scalar h := nomatch h

/-- Only null is read as null. -/
theorem ne_null_of_result_readJson {d : Datum} (hd : d.IsWritten) (hnull : d ≠ .null)
    {setting : ReadSetting} {jumps : Nat} {r : Json × Nat}
    (h : (readJson d).result setting jumps = some r) : r.1 ≠ .null := by
  have hlevels : (jsonFrom setting.depth d).result setting jumps = some r := h
  rw [jsonFrom.eq_def] at hlevels
  generalize setting.depth = levels at hlevels
  -- each kind of datum is read as a JSON value of its own kind
  cases hd with
  | null => exact absurd rfl hnull
  | bool | number | text =>
      rw [← Option.some.inj hlevels]
      exact Json.noConfusion
  | broken => exact absurd hlevels.symm (Option.some_ne_none r)
  | list | record =>
      cases levels with
      | zero => exact absurd hlevels.symm (Option.some_ne_none r)
      | succ levels =>
          obtain ⟨read, -, hread⟩ := Option.bind_eq_some_iff.mp hlevels
          rw [← Option.some.inj hread]
          exact Json.noConfusion

/-- Where null is allowed, no value that is read is null. -/
theorem domain_isWritten : Domain IsWritten (· ≠ .null) where
  toClosed := closed_isWritten
  value := by
    intro d extra hd
    refine (yields_resolve hd).bind fun value hvalue => ?_
    -- null is no value at all; anything else is read as something that is not null
    by_cases hnull : value = .null
    · rw [hnull]
      exact .pure fun json hjson => absurd hjson (Option.not_mem_none json)
    · have hread : Yields IsWritten extra (· ≠ .null) (readJson value) :=
        (closed_isWritten.yields_readJson hvalue).of_forall_result fun _ _ _ =>
          ne_null_of_result_readJson hvalue hnull
      refine Agrees.bind (.found fun _ _ => trivial) fun isNull (_ : True) => ?_
      split
      · exact .pure fun json hjson => absurd hjson (Option.not_mem_none json)
      · refine hread.bind fun json hjson => .pure ?_
        rintro _ ⟨⟩
        exact hjson

end AnnotatedApi.Datum
