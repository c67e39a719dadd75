import AnnotatedApi.Datum.Reader
import AnnotatedApi.Proofs.Json.Collected

/-! # Reading back what was written

The datum of a JSON value stands for itself: reading it follows no aliases, and it only needs as
many levels of nesting as the value has. `Reads reader d a` says that a reader gives a value for a
datum under just these conditions. There is one law for each way to read; records have a module of
their own. -/

namespace AnnotatedApi

/-! ## Results -/

namespace Read

/-- What an action gives in a setting, given the number of aliases that may be followed. -/
def result (act : Read α) (setting : ReadSetting) (jumps : Nat) : Option (α × Nat) :=
  (act.run setting).run jumps

variable {setting : ReadSetting} {jumps : Nat}

@[simp] theorem result_pure (a : α) : (pure a : Read α).result setting jumps = some (a, jumps) :=
  rfl

@[simp] theorem result_failure : (failure : Read α).result setting jumps = none :=
  rfl

/-- An action after another goes on from what that one leaves. -/
@[simp] theorem result_bind (act : Read α) (next : α → Read β) :
    (act >>= next).result setting jumps =
      (act.result setting jumps).bind fun r => (next r.1).result setting r.2 :=
  rfl

/-- The action gives the value and follows no aliases, wherever there are enough levels left. -/
def Returns (depth : Nat) (act : Read α) (a : α) : Prop :=
  ∀ setting jumps, depth ≤ setting.depth → act.result setting jumps = some (a, jumps)

namespace Returns

variable {depth : Nat} {act : Read α} {a : α}

/-- A value that is there is given anywhere. -/
theorem pure (a : α) : Returns depth (Pure.pure a) a :=
  fun _ _ _ => rfl

/-- More levels do no harm. -/
theorem mono (h : Returns depth act a) {more : Nat} (hmore : depth ≤ more) : Returns more act a :=
  fun setting jumps hdepth => h setting jumps (Nat.le_trans hmore hdepth)

/-- One action after another. -/
theorem bind (h : Returns depth act a) {next : α → Read β} {b : β}
    (hnext : Returns depth (next a) b) : Returns depth (act >>= next) b := by
  intro setting jumps hdepth
  rw [result_bind, h setting jumps hdepth]
  exact hnext setting jumps hdepth

/-- A further level of nesting takes one level more. -/
theorem within (h : Returns depth act a) : Returns (depth + 1) (Datum.within act) a := by
  intro setting jumps hdepth
  obtain ⟨levels, nodes⟩ := setting
  cases levels with
  | zero => exact absurd hdepth (Nat.not_succ_le_zero depth)
  | succ levels => exact h ⟨levels, nodes⟩ jumps (Nat.le_of_succ_le_succ hdepth)

/-- Several actions one after the other. -/
theorem mapM {act : α → Read β} {value : α → β} {list : List α}
    (h : ∀ x ∈ list, Returns depth (act x) (value x)) :
    Returns depth (list.mapM act) (list.map value) := by
  induction list with
  | nil => exact .pure []
  | cons x rest ih =>
      rw [List.mapM_cons]
      exact (h x List.mem_cons_self).bind
        ((ih fun y hy => h y (List.mem_cons_of_mem x hy)).bind (.pure _))

/-- The first of two alternatives counts if it succeeds. -/
theorem orElse_left (h : Returns depth act a) (other : Read α) :
    Returns depth (act <|> other) a := by
  intro setting jumps hdepth
  show (act.result setting jumps).orElse _ = _
  rw [h setting jumps hdepth]
  rfl

/-- The second of two alternatives counts if the first one fails. -/
theorem orElse_right {other : Read α} (hfails : ∀ setting jumps, other.result setting jumps = none)
    (h : Returns depth act a) : Returns depth (other <|> act) a := by
  intro setting jumps hdepth
  show (other.result setting jumps).orElse _ = _
  rw [hfails setting jumps]
  exact h setting jumps hdepth

end Returns

end Read

open Read (Returns)

namespace Datum

/-! ## Data of JSON values -/

/-- The data of items are those of each. -/
theorem ofItems_eq_map (items : List Json) : ofItems items = items.map ofJson := by
  induction items with
  | nil => rfl
  | cons item rest ih => rw [ofItems, ih, List.map_cons]

/-- The data of members are those of each. -/
theorem ofMembers_eq_map (members : List (String × Json)) :
    ofMembers members = members.map fun member => (.text member.1, ofJson member.2) := by
  induction members with
  | nil => rfl
  | cons member rest ih =>
      obtain ⟨name, value⟩ := member
      rw [ofMembers, ih, List.map_cons]

/-- No item is deeper than the greatest depth of the items. -/
theorem depth_le_of_mem_ofItems {item : Json} {items : List Json} (h : item ∈ items) :
    (ofJson item).depth ≤ depthOfItems (ofItems items) := by
  induction items with
  | nil => exact absurd h List.not_mem_nil
  | cons first rest ih =>
      rw [ofItems, depthOfItems]
      rcases List.mem_cons.mp h with rfl | hrest
      · exact Nat.le_max_left _ _
      · exact Nat.le_trans (ih hrest) (Nat.le_max_right _ _)

/-- The members are as deep as all of their values are at most. -/
theorem depthOfMembers_ofMembers_le_iff {members : List (String × Json)} {depth : Nat} :
    depthOfMembers (ofMembers members) ≤ depth ↔
      ∀ member ∈ members, (ofJson member.2).depth ≤ depth := by
  induction members with
  | nil => simp [ofMembers, depthOfMembers]
  | cons first rest ih =>
      obtain ⟨name, value⟩ := first
      have hname : (Datum.text name).depth = 0 := rfl
      rw [ofMembers, depthOfMembers, hname, List.forall_mem_cons, ← ih]
      dsimp only
      omega

/-- No member is deeper than the greatest depth of the members. -/
theorem depth_le_of_mem_ofMembers {member : String × Json} {members : List (String × Json)}
    (h : member ∈ members) : (ofJson member.2).depth ≤ depthOfMembers (ofMembers members) :=
  depthOfMembers_ofMembers_le_iff.mp (Nat.le_refl _) member h

/-- The datum of a JSON value stands for itself. -/
theorem resolve_ofJson (value : Json) : resolve (ofJson value) = pure (ofJson value) := by
  cases value <;> rfl

/-- The datum of a JSON value has no tag. -/
theorem content_ofJson (value : Json) : content (ofJson value) = pure (ofJson value) := by
  cases value <;> rfl

/-- Only null stands for nothing. -/
theorem isNull?_ofJson {value : Json} (h : value ≠ .null) :
    (ofJson value).isNull? = some false := by
  cases value with
  | null => exact absurd rfl h
  | _ => rfl

/-! ## Readers -/

/-- The reader gives the value for the datum and follows no aliases, wherever there are more levels
left than the datum has. -/
def Reads (reader : Reader α) (d : Datum) (a : α) : Prop :=
  Returns (d.depth + 1) (reader d) a

/-- What is read back from the JSON value of something is the thing itself. -/
abbrev ReadsBack (toJson : α → Json) (reader : Reader α) (a : α) : Prop :=
  Reads reader (ofJson (toJson a)) a

variable {reader : Reader α} {depth : Nat}

/-- What a reader gives under any circumstances it gives for the datum by itself. -/
theorem Reads.read?_eq {d : Datum} {a : α} (h : Reads reader d a) : d.read? reader = some a := by
  have hresult := h ⟨d.depth + 1, []⟩ 0 (Nat.le_refl _)
  rw [read?]
  show (((reader d).result ⟨d.depth + 1, []⟩ 0).map Prod.fst) = some a
  rw [hresult]
  rfl

/-- A reader for enough levels reads a datum on one level more than the datum has. -/
theorem reads_atOwnDepth {reader : Nat → Reader α} {d : Datum} {a : α}
    (h : ∀ levels, d.depth < levels → Reads (reader levels) d a) :
    Reads (fun d => reader (d.depth + 1) d) d a :=
  h (d.depth + 1) (Nat.lt_succ_self d.depth)

theorem reads_readText (text : String) : Reads readText (.text text) text :=
  fun _ _ _ => rfl

theorem reads_readBool (value : Bool) : Reads readBool (.bool value) value :=
  fun _ _ _ => rfl

theorem reads_readNumber (value : Number) : Reads readNumber (.number value) value :=
  fun _ _ _ => rfl

/-- A natural number is read back. -/
theorem reads_readNat (n : Nat) : Reads readNat (.number (.int n)) n := by
  have hvalue : (Number.int n).toNat? = some n := by simp [Number.toNat?]
  refine Returns.bind (reads_readNumber (.int n)) ?_
  rw [hvalue]
  exact .pure n

/-- A value that is there is read where null is allowed. -/
theorem reads_optional {value : Json} {a : α} (h : Reads reader (ofJson value) a)
    (hvalue : value ≠ .null) : Reads (optional reader) (ofJson value) (some a) := by
  rw [Reads, optional, resolve_ofJson, pure_bind, isNull?_ofJson hvalue]
  exact Returns.bind (.pure false) (Returns.bind h (.pure (some a)))

/-- A list of values is read back when each of them is. -/
theorem reads_listOf {toJson : α → Json} {values : List α}
    (h : ∀ a ∈ values, ReadsBack toJson reader a) :
    Reads (listOf reader) (ofJson (.array (values.map toJson))) values := by
  set data := ofItems (values.map toJson) with hdata
  have hmapM : data.mapM reader = values.mapM fun a => reader (ofJson (toJson a)) := by
    rw [hdata, ofItems_eq_map, List.map_map, List.mapM_map]
    rfl
  -- no item needs more levels than the deepest one
  have hitems : Returns (depthOfItems data + 1) (data.mapM reader) (values.map id) := by
    rw [hmapM]
    refine .mapM fun a ha => (h a ha).mono (Nat.succ_le_succ ?_)
    exact depth_le_of_mem_ofItems (List.mem_map_of_mem ha)
  rw [List.map_id] at hitems
  rw [Reads, listOf, content_ofJson, pure_bind]
  exact hitems.within

/-- Named values are read one by one and then collected. Reading the record takes as many levels
more than it has as reading the values does. -/
theorem returns_membersOf_collectMembers {β : Type} {toJson : β → Json} {value : β → α}
    {members : List (String × β)} {more : Nat}
    (h : ∀ entry ∈ members, Returns ((ofJson (toJson entry.2)).depth + more)
      (reader (ofJson (toJson entry.2))) (value entry.2)) :
    Returns ((ofJson (.object (mapMembers toJson members))).depth + more)
      (membersOf reader (ofJson (.object (mapMembers toJson members))))
      (collectMembers (mapMembers value members)) := by
  set data := ofMembers (mapMembers toJson members) with hdata
  have hmapM : data.mapM (readMember reader) =
      members.mapM fun entry => readMember reader (.text entry.1, ofJson (toJson entry.2)) := by
    rw [hdata, ofMembers_eq_map, mapMembers, List.map_map, List.mapM_map]
    rfl
  -- no value needs more levels than the deepest one, and a name needs none
  have hmembers : Returns (depthOfMembers data + more) (data.mapM (readMember reader))
      (members.map fun entry => (entry.1, value entry.2)) := by
    rw [hmapM]
    refine .mapM fun entry hentry => ?_
    have hmem : (entry.1, toJson entry.2) ∈ mapMembers toJson members :=
      List.mem_map_of_mem hentry
    have hvalue := (h entry hentry).mono
      (Nat.add_le_add_right (depth_le_of_mem_ofMembers hmem) more)
    have hname : Returns (depthOfMembers data + more) (readText (.text entry.1)) entry.1 :=
      fun _ _ _ => rfl
    exact hname.bind (hvalue.bind (.pure (entry.1, value entry.2)))
  have hlevels : (ofJson (.object (mapMembers toJson members))).depth + more =
      depthOfMembers data + more + 1 := Nat.add_right_comm _ 1 more
  rw [hlevels, membersOf, content_ofJson, pure_bind]
  exact hmembers.within.bind (.pure _)

/-- Named values of different names are read back when each of them is. -/
theorem reads_membersOf {toJson : α → Json} {members : List (String × α)}
    (hnames : (memberNames members).Nodup)
    (h : ∀ entry ∈ members, ReadsBack toJson reader entry.2) :
    Reads (membersOf reader) (ofJson (.object (mapMembers toJson members))) members := by
  have hcollected := @returns_membersOf_collectMembers _ reader _ toJson id members 1 h
  have hsame : mapMembers id members = members := List.map_id members
  rw [hsame, collectMembers_eq_self hnames] at hcollected
  exact hcollected

/-! ## JSON values -/

/-- A JSON value is read as what is left of it when names are collected. -/
theorem returns_jsonFrom {depth : Nat} {value : Json} (h : (ofJson value).depth ≤ depth) :
    Returns 0 (jsonFrom depth (ofJson value)) value.collect := by
  -- by induction on the levels: what is in a list or a record has one level less
  induction depth generalizing value with
  | zero =>
      rw [jsonFrom, resolve_ofJson, pure_bind]
      cases value with
      | array items => exact absurd h (Nat.not_succ_le_zero _)
      | object members => exact absurd h (Nat.not_succ_le_zero _)
      | _ => exact .pure _
  | succ depth ih =>
      rw [jsonFrom, resolve_ofJson, pure_bind]
      cases value with
      | array items =>
          have hitems : Returns 0 ((ofItems items).mapM (jsonFrom depth))
              (items.map Json.collect) := by
            rw [ofItems_eq_map, List.mapM_map]
            refine .mapM fun item hitem => ih ?_
            exact Nat.le_trans (depth_le_of_mem_ofItems hitem) (Nat.le_of_succ_le_succ h)
          rw [Json.collect, Json.collectItems_eq_map]
          exact hitems.bind (.pure _)
      | object members =>
          have hmembers : Returns 0 ((ofMembers members).mapM (readMember (jsonFrom depth)))
              (mapMembers Json.collect members) := by
            rw [ofMembers_eq_map, List.mapM_map]
            refine .mapM fun entry hentry => ?_
            have hdepth := depth_le_of_mem_ofMembers hentry
            have hvalue := ih (Nat.le_trans hdepth (Nat.le_of_succ_le_succ h))
            exact Returns.bind (fun _ _ _ => rfl) (hvalue.bind (.pure _))
          rw [Json.collect, Json.collectEntries_eq_mapMembers]
          exact hmembers.bind (.pure _)
      | _ => exact .pure _

/-- A JSON value is read as what is left of it when names are collected, on as many levels as it
has. -/
theorem returns_readJson (value : Json) :
    Returns (ofJson value).depth (readJson (ofJson value)) value.collect := by
  intro setting jumps hdepth
  exact returns_jsonFrom hdepth setting jumps (Nat.zero_le _)

/-- Named JSON values are read as what is left of them when names are collected, on as many levels
as their record has. -/
theorem returns_jsonMembers (members : List (String × Json)) :
    Returns (ofJson (.object members)).depth (membersOf readJson (ofJson (.object members)))
      (collectMembers (mapMembers Json.collect members)) := by
  have hmembers := @returns_membersOf_collectMembers _ readJson _ id Json.collect members 0
    fun entry _ => returns_readJson entry.2
  have hsame : mapMembers id members = members := List.map_id members
  rw [hsame] at hmembers
  exact hmembers

/-- A JSON value without repeated names is read back. -/
theorem readsBack_readJson {value : Json} (h : value.IsCollected) :
    ReadsBack id readJson value := by
  have hreturns := returns_readJson value
  rw [h] at hreturns
  exact hreturns.mono (Nat.le_succ _)

/-- A list of JSON values without repeated names is read back. -/
theorem readsBack_jsonList {values : List Json} (h : ∀ v ∈ values, v.IsCollected) :
    ReadsBack Json.array (listOf readJson) values := by
  have hlist := reads_listOf fun v hv => readsBack_readJson (h v hv)
  rw [List.map_id] at hlist
  exact hlist

/-- Named JSON values without repeated names are read back. -/
theorem readsBack_jsonMembers {members : List (String × Json)}
    (hnames : (memberNames members).Nodup) (h : ∀ entry ∈ members, entry.2.IsCollected) :
    ReadsBack Json.object (membersOf readJson) members := by
  have hmembers := reads_membersOf hnames fun entry hentry => readsBack_readJson (h entry hentry)
  have hsame : mapMembers id members = members := List.map_id members
  rw [hsame] at hmembers
  exact hmembers

/-! ## Settled data -/

/-- The datum of a JSON value is settled already. -/
theorem returns_settleFrom {depth : Nat} {value : Json} (h : (ofJson value).depth ≤ depth) :
    Returns 0 (settleFrom depth (ofJson value)) (ofJson value) := by
  -- by induction on the levels, as for reading
  induction depth generalizing value with
  | zero =>
      rw [settleFrom, resolve_ofJson, pure_bind]
      cases value with
      | array items => exact absurd h (Nat.not_succ_le_zero _)
      | object members => exact absurd h (Nat.not_succ_le_zero _)
      | _ => exact .pure _
  | succ depth ih =>
      rw [settleFrom, resolve_ofJson, pure_bind]
      cases value with
      | array items =>
          have hitems : Returns 0 ((ofItems items).mapM (settleFrom depth)) (ofItems items) := by
            rw [ofItems_eq_map, List.mapM_map]
            refine .mapM fun item hitem => ih ?_
            exact Nat.le_trans (depth_le_of_mem_ofItems hitem) (Nat.le_of_succ_le_succ h)
          exact hitems.bind (.pure _)
      | object members =>
          have hmembers : Returns 0 ((ofMembers members).mapM fun member => do
              let key ← settleFrom depth member.1
              let value ← settleFrom depth member.2
              return (key, value)) (ofMembers members) := by
            rw [ofMembers_eq_map, List.mapM_map]
            refine .mapM fun entry hentry => ?_
            have hname : (ofJson (.text entry.1)).depth ≤ depth := Nat.zero_le _
            have hkey := ih hname
            have hdepth := depth_le_of_mem_ofMembers hentry
            have hvalue := ih (Nat.le_trans hdepth (Nat.le_of_succ_le_succ h))
            exact hkey.bind (hvalue.bind (.pure _))
          exact hmembers.bind (.pure _)
      | _ => exact .pure _

/-- After settling, a reader starts over with the levels of the datum itself. -/
theorem result_settled {value : Json} {setting : ReadSetting}
    (h : (ofJson value).depth ≤ setting.depth) (jumps : Nat) :
    (settled reader (ofJson value)).result setting jumps =
      ((ofJson value).read? reader).map fun a => (a, jumps) := by
  have hsettle := returns_settleFrom h setting jumps (Nat.zero_le _)
  have hfound : (found ((ofJson value).read? reader)).result setting jumps =
      ((ofJson value).read? reader).map fun a => (a, jumps) := by
    cases (ofJson value).read? reader with
    | none => rfl
    | some a => rfl
  show ((settleFrom setting.depth (ofJson value)).result setting jumps).bind _ = _
  rw [hsettle]
  exact hfound

/-- What is read from a datum of a JSON value by itself is read from it after settling. -/
theorem reads_settled {value : Json} {a : α} (h : (ofJson value).read? reader = some a) :
    Reads (settled reader) (ofJson value) a := by
  intro setting jumps hdepth
  rw [result_settled (Nat.le_of_succ_le hdepth), h]
  rfl

/-- A file that nests no deeper than is allowed is read after settling as its datum by itself. -/
theorem read?_settled_ofJson {value : Json} {maxDepth : Nat} (h : (ofJson value).depth ≤ maxDepth) :
    DataFile.read? { root := ofJson value, maxDepth } (settled reader) =
      (ofJson value).read? reader := by
  show ((settled reader (ofJson value)).result { depth := maxDepth } 0).map Prod.fst = _
  rw [result_settled h, Option.map_map]
  exact Option.map_id_apply

end Datum

end AnnotatedApi
