import AnnotatedApi.Json.Basic
import AnnotatedApi.Proofs.Members

/-! # Values without repeated names

A JSON value is collected when no object in it, at any depth, has a name twice: when collecting
leaves it alone. -/

namespace AnnotatedApi.Json

/-- No object in the value has a name twice: there is nothing to collect. -/
def IsCollected (value : Json) : Prop :=
  value.collect = value

/-- The items of an array are collected one by one. -/
theorem collectItems_eq_map (items : List Json) : collectItems items = items.map collect := by
  induction items with
  | nil => rfl
  | cons item rest ih => rw [collectItems, ih, List.map_cons]

/-- The values of members are collected one by one. -/
theorem collectEntries_eq_mapMembers (members : List (String × Json)) :
    collectEntries members = mapMembers collect members := by
  induction members with
  | nil => rfl
  | cons entry rest ih =>
      obtain ⟨name, value⟩ := entry
      rw [collectEntries, ih]
      rfl

/-- An array is collected when its items are. -/
theorem isCollected_array_iff {items : List Json} :
    (array items).IsCollected ↔ ∀ item ∈ items, item.IsCollected := by
  rw [IsCollected, collect, collectItems_eq_map, Json.array.injEq]
  constructor
  · intro h item hitem
    exact List.map_inj_left.mp (h.trans (List.map_id items).symm) item hitem
  · intro h
    exact (List.map_congr_left h).trans (List.map_id items)

/-- An object is collected when no name is there twice and its values are collected. -/
theorem isCollected_object_iff {members : List (String × Json)} :
    (object members).IsCollected ↔
      (memberNames members).Nodup ∧ ∀ entry ∈ members, entry.2.IsCollected := by
  rw [IsCollected, collect, collectEntries_eq_mapMembers, Json.object.injEq]
  have hmap : (∀ entry ∈ members, entry.2.IsCollected) ↔ mapMembers collect members = members := by
    constructor
    · intro h
      refine (List.map_congr_left fun entry hentry => ?_).trans (List.map_id members)
      exact Prod.ext rfl (h entry hentry)
    · intro h entry hentry
      have hsame := List.map_inj_left.mp (h.trans (List.map_id members).symm) entry hentry
      exact congrArg Prod.snd hsame
  rw [hmap]
  constructor
  · intro h
    -- the names stay the same when the values are collected
    have hnames : memberNames (mapMembers collect members) = memberNames members :=
      memberNames_mapMembers collect members
    have hnodup : (memberNames members).Nodup := h ▸ nodup_collectMembers _
    rw [← hnames] at hnodup
    rw [collectMembers_eq_self hnodup] at h
    exact ⟨hnames ▸ hnodup, h⟩
  · rintro ⟨hnodup, hsame⟩
    rw [hsame, collectMembers_eq_self hnodup]

end AnnotatedApi.Json
