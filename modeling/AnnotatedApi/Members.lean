/-! # Members

A record whose keys are texts and keep their order: a list of pairs. Setting a member that is there
keeps its place and replaces its value; a new member goes to the end. -/

namespace AnnotatedApi

/-! ## Setting and reading -/

/-- Set a member: in place when the name is there, at the end otherwise. -/
def putMember (name : String) (value : α) : List (String × α) → List (String × α)
  | [] => [(name, value)]
  | (key, old) :: rest =>
      if key = name then (key, value) :: rest else (key, old) :: putMember name value rest

/-- The value of the first member of a name. -/
def getMember? (name : String) : List (String × α) → Option α
  | [] => none
  | (key, value) :: rest => if key = name then some value else getMember? name rest

/-- Set several members one after the other. -/
def putMembers (added members : List (String × α)) : List (String × α) :=
  added.foldl (fun done (name, value) => putMember name value done) members

/-- Collect members one after the other; a later value replaces an earlier one of its name. -/
def collectMembers (members : List (String × α)) : List (String × α) :=
  putMembers members []

@[simp] theorem getMember?_nil (name : String) : getMember? name ([] : List (String × α)) = none :=
  rfl

/-- Reading a member that was just set gives the new value. -/
@[simp] theorem getMember?_putMember_self (name : String) (value : α)
    (members : List (String × α)) :
    getMember? name (putMember name value members) = some value := by
  induction members with
  | nil => simp [putMember, getMember?]
  | cons entry rest ih =>
      obtain ⟨key, old⟩ := entry
      by_cases h : key = name <;> simp [putMember, getMember?, h, ih]

/-- Setting a member leaves every other member alone. -/
theorem getMember?_putMember_of_ne {name other : String} (h : other ≠ name) (value : α)
    (members : List (String × α)) :
    getMember? other (putMember name value members) = getMember? other members := by
  induction members with
  | nil => simp [putMember, getMember?, Ne.symm h]
  | cons entry rest ih =>
      obtain ⟨key, old⟩ := entry
      by_cases hk : key = name
      · subst hk
        simp [putMember, getMember?, Ne.symm h]
      · simp only [putMember, getMember?, if_neg hk, ih]

/-- Whether a member of the name is there. -/
def hasMember (name : String) (members : List (String × α)) : Bool :=
  (getMember? name members).isSome

/-- Set a member unless one of its name is there. -/
def addMember (name : String) (value : α) (members : List (String × α)) : List (String × α) :=
  if hasMember name members then members else putMember name value members

/-- The names of the members, in order. -/
def memberNames (members : List (String × α)) : List String :=
  members.map Prod.fst

/-- Change the values of all members. -/
def mapMembers (f : α → β) (members : List (String × α)) : List (String × β) :=
  members.map fun (name, value) => (name, f value)

end AnnotatedApi
