import AnnotatedApi.Members
import AnnotatedApi.Proofs.FirstSeen

/-! # Laws of members

Members are filled one at a time, so every law here says what one more member does: to the names,
to what is read, and to what the members can be. Collecting a list of members then keeps each name
at its first place with its last value. -/

namespace AnnotatedApi

/-! ## Names and reading -/

@[simp] theorem memberNames_nil : memberNames ([] : List (String × α)) = [] := rfl

@[simp] theorem memberNames_cons (entry : String × α) (members : List (String × α)) :
    memberNames (entry :: members) = entry.1 :: memberNames members := rfl

@[simp] theorem memberNames_append (members others : List (String × α)) :
    memberNames (members ++ others) = memberNames members ++ memberNames others :=
  List.map_append

/-- Members that are chosen have their names in order. -/
theorem memberNames_filter_sublist (p : String × α → Bool) (members : List (String × α)) :
    (memberNames (members.filter p)).Sublist (memberNames members) :=
  List.filter_sublist.map Prod.fst

/-- What holds of the changed values holds of all members with changed values. -/
theorem forall_mem_mapMembers {P : String × β → Prop} {f : α → β} {members : List (String × α)}
    (h : ∀ entry ∈ members, P (entry.1, f entry.2)) : ∀ entry ∈ mapMembers f members, P entry := by
  intro entry hentry
  obtain ⟨old, hold, rfl⟩ := List.mem_map.mp hentry
  exact h old hold

/-- The name of a member is among the names. -/
theorem mem_memberNames_of_mem {entry : String × α} {members : List (String × α)}
    (h : entry ∈ members) : entry.1 ∈ memberNames members :=
  List.mem_map_of_mem h

@[simp] theorem memberNames_mapMembers (f : α → β) (members : List (String × α)) :
    memberNames (mapMembers f members) = memberNames members := by
  rw [memberNames, mapMembers, List.map_map]
  rfl

/-- Nothing is read exactly under the names that are not there. -/
theorem getMember?_eq_none_iff {name : String} {members : List (String × α)} :
    getMember? name members = none ↔ name ∉ memberNames members := by
  induction members with
  | nil => simp
  | cons entry rest ih =>
      obtain ⟨key, value⟩ := entry
      by_cases h : key = name
      · simp [getMember?, h]
      · simp [getMember?, h, ih, Ne.symm h]

/-- A member is there exactly under the names. -/
theorem hasMember_iff {name : String} {members : List (String × α)} :
    hasMember name members = true ↔ name ∈ memberNames members := by
  rw [hasMember, Option.isSome_iff_ne_none, ne_eq, getMember?_eq_none_iff, not_not]

/-- What is read is a member. -/
theorem mem_of_getMember? {name : String} {value : α} {members : List (String × α)}
    (h : getMember? name members = some value) : (name, value) ∈ members := by
  induction members with
  | nil => simp at h
  | cons entry rest ih =>
      obtain ⟨key, first⟩ := entry
      rw [getMember?] at h
      split at h
      · next heq =>
        rw [Option.some.injEq] at h
        rw [heq, h]
        exact List.mem_cons_self
      · exact List.mem_cons_of_mem _ (ih h)

/-- Where no name stands twice, reading finds every member. -/
theorem getMember?_eq_some_iff {name : String} {value : α} {members : List (String × α)}
    (h : (memberNames members).Nodup) :
    getMember? name members = some value ↔ (name, value) ∈ members := by
  refine ⟨mem_of_getMember?, ?_⟩
  intro hmem
  induction members with
  | nil => simp at hmem
  | cons entry rest ih =>
      obtain ⟨key, first⟩ := entry
      rw [memberNames_cons, List.nodup_cons] at h
      rcases List.mem_cons.mp hmem with heq | hrest
      · rw [Prod.mk.injEq] at heq
        rw [getMember?, if_pos heq.1.symm, heq.2]
      · have hne : key ≠ name := by
          intro heq
          have hname : name ∈ memberNames rest := mem_memberNames_of_mem hrest
          exact h.1 (heq ▸ hname)
        rw [getMember?, if_neg hne]
        exact ih h.2 hrest

/-- Members are told by their names and by what is read under each, where no name stands twice. -/
theorem eq_of_getMember? {members others : List (String × α)}
    (hnames : memberNames members = memberNames others) (hnodup : (memberNames members).Nodup)
    (h : ∀ name, getMember? name members = getMember? name others) : members = others := by
  induction members generalizing others with
  | nil => exact (List.map_eq_nil_iff.mp hnames.symm).symm
  | cons entry rest ih =>
      obtain ⟨key, value⟩ := entry
      cases others with
      | nil => exact absurd hnames (List.cons_ne_nil _ _)
      | cons other rest' =>
          obtain ⟨key', value'⟩ := other
          rw [memberNames_cons, memberNames_cons, List.cons.injEq] at hnames
          obtain ⟨rfl, hrest⟩ := hnames
          rw [memberNames_cons, List.nodup_cons] at hnodup
          have hvalue := h key
          rw [getMember?, getMember?, if_pos rfl, if_pos rfl, Option.some.injEq] at hvalue
          rw [hvalue, ih hrest hnodup.2]
          intro name
          by_cases heq : name = key
          · -- the name in front stands nowhere else
            rw [heq, getMember?_eq_none_iff.mpr hnodup.1, eq_comm, getMember?_eq_none_iff, ← hrest]
            exact hnodup.1
          · have hname := h name
            rw [getMember?, getMember?, if_neg (Ne.symm heq), if_neg (Ne.symm heq)] at hname
            exact hname

/-! ## Setting one member -/

/-- Setting a member adds its name at the end, unless it is there. -/
theorem memberNames_putMember (name : String) (value : α) (members : List (String × α)) :
    memberNames (putMember name value members) =
      if name ∈ memberNames members then memberNames members
      else memberNames members ++ [name] := by
  induction members with
  | nil => simp [putMember]
  | cons entry rest ih =>
      obtain ⟨key, old⟩ := entry
      by_cases h : key = name
      · simp [putMember, h]
      · rw [putMember, if_neg h, memberNames_cons, ih]
        by_cases hmem : name ∈ memberNames rest
        · simp [hmem]
        · simp [hmem, Ne.symm h]

/-- Adding a member adds its name at the end, unless it is there. -/
theorem memberNames_addMember (name : String) (value : α) (members : List (String × α)) :
    memberNames (addMember name value members) =
      if name ∈ memberNames members then memberNames members
      else memberNames members ++ [name] := by
  rw [addMember]
  by_cases h : name ∈ memberNames members
  · rw [if_pos (hasMember_iff.mpr h), if_pos h]
  · rw [if_neg (mt hasMember_iff.mp h), memberNames_putMember]

/-- Where each step adds at most one name, and that at the end unless it is there, all steps
together lead to the names in the order of first occurrence. -/
theorem memberNames_foldl {step : List (String × α) → β → List (String × α)}
    {name? : β → Option String}
    (hstep : ∀ members b, memberNames (step members b) =
      match name? b with
      | some name =>
          if name ∈ memberNames members then memberNames members
          else memberNames members ++ [name]
      | none => memberNames members)
    {members : List (String × α)} {all : List String} (h : memberNames members = all.eraseDups)
    (added : List β) :
    memberNames (added.foldl step members) = (all ++ added.filterMap name?).eraseDups := by
  induction added using List.reverseRecOn with
  | nil => rw [List.foldl_nil, List.filterMap_nil, List.append_nil, h]
  | append_singleton added b ih =>
      rw [List.foldl_append, List.foldl_cons, List.foldl_nil, hstep, ih, List.filterMap_append,
        ← List.append_assoc]
      cases hname : name? b with
      | none => simp [hname]
      | some name =>
          have hsingle : [b].filterMap name? = [name] := by simp [hname]
          rw [hsingle, eraseDups_concat]
          simp only [List.mem_eraseDups]

/-- Members that are set one after the other, each to a value that may depend on those before, have
the names in the order of first occurrence. -/
theorem memberNames_foldl_putMember (name : β → String) (value : List (String × α) → β → α)
    (added : List β) :
    memberNames (added.foldl (fun members b => putMember (name b) (value members b) members) []) =
      (added.map name).eraseDups := by
  induction added using List.reverseRecOn with
  | nil => rfl
  | append_singleton added b ih =>
      -- a name that is there keeps its place, and a new one goes to the end
      rw [List.foldl_append, List.foldl_cons, List.foldl_nil, memberNames_putMember, ih,
        List.map_append, List.map_cons, List.map_nil, eraseDups_concat]
      simp only [List.mem_eraseDups]

/-- The names after a member was set. -/
theorem mem_memberNames_putMember_iff {name other : String} {value : α}
    {members : List (String × α)} :
    other ∈ memberNames (putMember name value members) ↔
      other = name ∨ other ∈ memberNames members := by
  rw [memberNames_putMember]
  by_cases h : name ∈ memberNames members
  · rw [if_pos h]
    refine ⟨.inr, ?_⟩
    rintro (rfl | hmem)
    · exact h
    · exact hmem
  · rw [if_neg h, List.mem_append, List.mem_singleton, or_comm]

/-- Setting a member repeats no name. -/
theorem nodup_putMember {name : String} {value : α} {members : List (String × α)}
    (h : (memberNames members).Nodup) : (memberNames (putMember name value members)).Nodup := by
  rw [memberNames_putMember]
  split
  · exact h
  · next hname =>
    refine List.nodup_append.mpr ⟨h, List.pairwise_singleton _ _, ?_⟩
    rintro other hother _ hnew rfl
    exact hname (List.mem_singleton.mp hnew ▸ hother)

/-- Adding a member repeats no name. -/
theorem nodup_addMember {name : String} {value : α} {members : List (String × α)}
    (h : (memberNames members).Nodup) : (memberNames (addMember name value members)).Nodup := by
  rw [addMember]
  split
  · exact h
  · exact nodup_putMember h

/-- The names after a member was added. -/
theorem mem_memberNames_addMember_iff {name other : String} {value : α}
    {members : List (String × α)} :
    other ∈ memberNames (addMember name value members) ↔
      other = name ∨ other ∈ memberNames members := by
  rw [addMember]
  split
  · next h =>
    rw [hasMember_iff] at h
    refine ⟨.inr, ?_⟩
    rintro (rfl | hmem)
    · exact h
    · exact hmem
  · exact mem_memberNames_putMember_iff

/-- Reading after a member was set. -/
theorem getMember?_putMember (name other : String) (value : α) (members : List (String × α)) :
    getMember? other (putMember name value members) =
      if other = name then some value else getMember? other members := by
  by_cases h : other = name
  · rw [if_pos h, h, getMember?_putMember_self]
  · rw [if_neg h, getMember?_putMember_of_ne h]

/-- Reading after a member was added: what was there before is read first. -/
theorem getMember?_addMember (name other : String) (value : α) (members : List (String × α)) :
    getMember? other (addMember name value members) =
      (getMember? other members <|> if other = name then some value else none) := by
  rw [addMember]
  split
  · next h =>
    rw [hasMember] at h
    by_cases heq : other = name
    · obtain ⟨old, hold⟩ := Option.isSome_iff_exists.mp h
      rw [heq, hold]
      rfl
    · rw [if_neg heq, Option.orElse_eq_orElse, Option.orElse_eq_or, Option.or_none]
  · next h =>
    rw [getMember?_putMember]
    by_cases heq : other = name
    · rw [hasMember, Bool.not_eq_true, Option.isSome_eq_false_iff, Option.isNone_iff_eq_none] at h
      rw [if_pos heq, if_pos heq, heq, h]
      rfl
    · rw [if_neg heq, if_neg heq, Option.orElse_eq_orElse, Option.orElse_eq_or, Option.or_none]

/-- Reading after several members were added finds the first of the name. -/
theorem getMember?_foldl_addMember (key : β → String) (value : β → α) (added : List β)
    (members : List (String × α)) (name : String) :
    getMember? name (added.foldl (fun done b => addMember (key b) (value b) done) members) =
      (getMember? name members <|> (added.find? fun b => key b = name).map value) := by
  induction added generalizing members with
  | nil => simp
  | cons b added ih =>
      rw [List.foldl_cons, ih, getMember?_addMember]
      by_cases h : key b = name
      · simp [h]
      · simp [h, Ne.symm h]

/-- What holds of the new member and of all old ones holds of all after the new one was set. -/
theorem forall_mem_putMember {P : String × α → Prop} {name : String} {value : α}
    {members : List (String × α)} (hnew : P (name, value)) (hold : ∀ entry ∈ members, P entry) :
    ∀ entry ∈ putMember name value members, P entry := by
  induction members with
  | nil =>
      intro entry hentry
      rw [List.mem_singleton.mp hentry]
      exact hnew
  | cons first rest ih =>
      obtain ⟨key, old⟩ := first
      rw [List.forall_mem_cons] at hold
      rw [putMember]
      split
      · next heq =>
        rw [heq, List.forall_mem_cons]
        exact ⟨hnew, hold.2⟩
      · rw [List.forall_mem_cons]
        exact ⟨hold.1, ih hold.2⟩

/-- What holds of the new member and of all old ones holds of all after the new one was added. -/
theorem forall_mem_addMember {P : String × α → Prop} {name : String} {value : α}
    {members : List (String × α)} (hnew : P (name, value)) (hold : ∀ entry ∈ members, P entry) :
    ∀ entry ∈ addMember name value members, P entry := by
  rw [addMember]
  split
  · exact hold
  · exact forall_mem_putMember hnew hold

/-! ## Collecting members -/

@[simp] theorem putMembers_nil (members : List (String × α)) : putMembers [] members = members :=
  rfl

/-- The last of several members is set after all others. -/
@[simp] theorem putMembers_concat (added : List (String × α)) (entry : String × α)
    (members : List (String × α)) :
    putMembers (added ++ [entry]) members =
      putMember entry.1 entry.2 (putMembers added members) := by
  rw [putMembers, List.foldl_append]
  rfl

/-- What holds of the new members and of all old ones holds of all after the new ones were set. -/
theorem forall_mem_putMembers {P : String × α → Prop} {added members : List (String × α)}
    (hnew : ∀ entry ∈ added, P entry) (hold : ∀ entry ∈ members, P entry) :
    ∀ entry ∈ putMembers added members, P entry := by
  induction added using List.reverseRecOn with
  | nil => exact hold
  | append_singleton added last ih =>
      rw [List.forall_mem_append, List.forall_mem_singleton] at hnew
      rw [putMembers_concat]
      exact forall_mem_putMember hnew.2 (ih hnew.1)

/-- Setting members repeats no name. -/
theorem nodup_putMembers {added members : List (String × α)} (h : (memberNames members).Nodup) :
    (memberNames (putMembers added members)).Nodup := by
  induction added using List.reverseRecOn with
  | nil => exact h
  | append_singleton added last ih =>
      rw [putMembers_concat]
      exact nodup_putMember ih

@[simp] theorem collectMembers_nil : collectMembers ([] : List (String × α)) = [] := rfl

/-- The last of the members that are collected is set after all others. -/
@[simp] theorem collectMembers_concat (members : List (String × α)) (entry : String × α) :
    collectMembers (members ++ [entry]) =
      putMember entry.1 entry.2 (collectMembers members) :=
  putMembers_concat members entry []

/-- What holds of all members holds of those that are collected. -/
theorem forall_mem_collectMembers {P : String × α → Prop} {members : List (String × α)}
    (h : ∀ entry ∈ members, P entry) : ∀ entry ∈ collectMembers members, P entry :=
  forall_mem_putMembers h (List.forall_mem_nil P)

/-- The names that are collected are those that are there, without repetitions. -/
theorem memberNames_collectMembers (members : List (String × α)) :
    memberNames (collectMembers members) = (memberNames members).eraseDups :=
  memberNames_foldl_putMember Prod.fst (fun _ entry => entry.2) members

/-- The names that are collected are in the order of first occurrence. -/
theorem firstSeen_collectMembers (members : List (String × α)) :
    FirstSeen (memberNames members) (memberNames (collectMembers members)) := by
  rw [memberNames_collectMembers]
  exact firstSeen_eraseDups _

/-- No name is collected twice. -/
theorem nodup_collectMembers (members : List (String × α)) :
    (memberNames (collectMembers members)).Nodup :=
  (firstSeen_collectMembers members).nodup

/-- The value that is collected under a name is the last one. -/
theorem getMember?_collectMembers (name : String) (members : List (String × α)) :
    getMember? name (collectMembers members) =
      ((members.filter fun entry => entry.1 = name).getLast?).map Prod.snd := by
  induction members using List.reverseRecOn with
  | nil => rfl
  | append_singleton members entry ih =>
      -- the member set last is read under its name and shadows nothing else
      rw [collectMembers_concat, getMember?_putMember, List.filter_append]
      by_cases h : entry.1 = name
      · simp [h]
      · rw [if_neg (Ne.symm h), ih]
        simp [h]

/-- A member of a new name goes to the end. -/
theorem putMember_of_not_mem {name : String} {value : α} {members : List (String × α)}
    (h : name ∉ memberNames members) :
    putMember name value members = members ++ [(name, value)] := by
  induction members with
  | nil => rfl
  | cons entry rest ih =>
      obtain ⟨key, old⟩ := entry
      rw [memberNames_cons, List.mem_cons, not_or] at h
      rw [putMember, if_neg (Ne.symm h.1), ih h.2, List.cons_append]

/-- Members of different names are collected as they are. -/
theorem collectMembers_eq_self {members : List (String × α)} (h : (memberNames members).Nodup) :
    collectMembers members = members := by
  induction members using List.reverseRecOn with
  | nil => rfl
  | append_singleton members entry ih =>
      rw [memberNames_append, List.nodup_append] at h
      obtain ⟨hnodup, -, hdisjoint⟩ := h
      have hnew : entry.1 ∉ memberNames members := fun hmem =>
        hdisjoint _ hmem _ List.mem_cons_self rfl
      rw [collectMembers_concat, ih hnodup, putMember_of_not_mem hnew]

/-- Setting a member twice keeps the last value. -/
theorem putMember_putMember (name : String) (first last : α) (members : List (String × α)) :
    putMember name last (putMember name first members) = putMember name last members := by
  induction members with
  | nil => simp [putMember]
  | cons entry rest ih =>
      obtain ⟨key, old⟩ := entry
      by_cases h : key = name
      · simp [putMember, h]
      · simp only [putMember, if_neg h, ih]

/-- Leaving out a name before or after a member is set is the same. -/
theorem filter_putMember (name key : String) (value : α) (members : List (String × α)) :
    (putMember key value members).filter (fun entry => entry.1 ≠ name) =
      if key = name then members.filter fun entry => entry.1 ≠ name
      else putMember key value (members.filter fun entry => entry.1 ≠ name) := by
  induction members with
  | nil =>
      by_cases h : key = name
      · simp [putMember, h]
      · simp [putMember, h]
  | cons entry rest ih =>
      obtain ⟨other, old⟩ := entry
      by_cases hkey : other = key
      · by_cases h : key = name
        · simp [putMember, hkey, h]
        · simp [putMember, hkey, h]
      · rw [putMember, if_neg hkey, List.filter_cons, List.filter_cons, ih]
        by_cases hother : other = name
        · simp [hother]
        · by_cases h : key = name
          · simp [hother, h]
          · simp [hother, h, putMember, hkey]

/-- Leaving out a name before or after members are collected is the same. -/
theorem filter_collectMembers (name : String) (members : List (String × α)) :
    (collectMembers members).filter (fun entry => entry.1 ≠ name) =
      collectMembers (members.filter fun entry => entry.1 ≠ name) := by
  induction members using List.reverseRecOn with
  | nil => rfl
  | append_singleton members entry ih =>
      rw [collectMembers_concat, filter_putMember, ih, List.filter_append]
      by_cases h : entry.1 = name
      · simp [h]
      · simp [h]

end AnnotatedApi
