import Mathlib.Data.List.Find
import AnnotatedApi.Proofs.Members
import AnnotatedApi.Proofs.Source.FileOrder
import AnnotatedApi.Source.NameTable

/-! # Stored positions

A table is exact if its stored positions are those of its entries, neither more nor less. Each step
that fills a table keeps it so: an entry is inserted once, at the position that is stored for it; an
implementation block is attached at a position that is there; attributes change no names. An exact
table is the index of its entries, so files have one index, whether positions are stored or not. -/

namespace AnnotatedApi.Source

/-- What stands in a list with one more element: what stood there, or the new one at the end. -/
theorem getElem?_concat_eq_some_iff {list : List α} {last a : α} {i : Nat} :
    (list ++ [last])[i]? = some a ↔ list[i]? = some a ∨ i = list.length ∧ last = a := by
  rcases lt_trichotomy i list.length with hlt | rfl | hgt
  · rw [List.getElem?_append_left hlt]
    simp [Nat.ne_of_lt hlt]
  · simp
  · have hend : (list ++ [last]).length ≤ i := by
      rw [List.length_append, List.length_singleton]
      omega
    rw [List.getElem?_eq_none (Nat.le_of_lt hgt), List.getElem?_eq_none hend]
    simp [Nat.ne_of_gt hgt]

/-- Changing an element of the front of a list changes the front. -/
theorem modify_append_left {front : List α} {i : Nat} (h : i < front.length) (back : List α)
    (change : α → α) : (front ++ back).modify i change = front.modify i change ++ back := by
  induction front generalizing i with
  | nil => exact absurd h (Nat.not_lt_zero i)
  | cons a front ih =>
      cases i with
      | zero => rfl
      | succ i =>
          rw [List.cons_append, List.modify_succ_cons, List.modify_succ_cons, List.cons_append,
            ih (Nat.lt_of_succ_lt_succ h)]

/-- An entry may be that of an implementation block: it is the type of the block's module, or a
struct of the name. -/
def PlacedImpl.IsFor (placed : PlacedImpl) (entry : TypeEntry) : Prop :=
  entry.qualifiedName = qualify placed.modulePath placed.typeName ∨
    entry.kind = .struct ∧ entry.name = placed.typeName

namespace NameTable

/-! ## Exact tables -/

/-- The stored positions are those of the entries, and no two entries have one qualified name. -/
structure Exact (table : NameTable) : Prop where
  distinct : table.toIndex.Distinct
  /-- No name has two positions. -/
  stored : (memberNames table.positions).Nodup
  /-- A position is stored under a name exactly when the entry at the position has the name. -/
  position_iff : ∀ {name : String} {position : Nat},
    getMember? name table.positions = some position ↔
      table.toIndex.names[position]? = some name

/-- The table of nothing is exact. -/
theorem exact_empty : Exact {} where
  distinct := List.nodup_nil
  stored := List.nodup_nil
  position_iff :=
    iff_of_false (Option.some_ne_none _ ∘ Eq.symm) (Option.some_ne_none _ ∘ Eq.symm)

variable {table : NameTable}

/-- A name has a position exactly when an entry has it. -/
theorem Exact.hasMember_iff (h : table.Exact) {name : String} :
    hasMember name table.positions = true ↔ (table.toIndex.get? name).isSome = true := by
  rw [Index.isSome_get?_iff, List.mem_iff_getElem?, hasMember, Option.isSome_iff_exists]
  simp only [h.position_iff]

/-- A name without position is the name of no entry. -/
theorem Exact.get?_eq_none (h : table.Exact) {name : String}
    (hname : getMember? name table.positions = none) : table.toIndex.get? name = none := by
  rw [← Option.not_isSome_iff_eq_none, ← h.hasMember_iff, hasMember, hname]
  exact Bool.false_ne_true

/-! ## Steps -/

/-- Inserting an entry is the same with and without positions. -/
theorem Exact.toIndex_insert (h : table.Exact) (entry : TypeEntry) :
    (table.insert entry).toIndex = table.toIndex.insert entry := by
  rw [insert, Index.insert]
  by_cases htaken : hasMember entry.qualifiedName table.positions = true
  · rw [if_pos htaken, if_pos (h.hasMember_iff.mp htaken)]
  · rw [if_neg htaken, if_neg (htaken ∘ h.hasMember_iff.mpr)]
    rfl

/-- Inserting an entry keeps a table exact. -/
theorem Exact.insert (h : table.Exact) (entry : TypeEntry) : (table.insert entry).Exact := by
  have hdistinct : (table.insert entry).toIndex.Distinct := by
    rw [h.toIndex_insert]
    exact h.distinct.insert entry
  rw [NameTable.insert] at hdistinct ⊢
  by_cases htaken : hasMember entry.qualifiedName table.positions = true
  · rw [if_pos htaken]
    exact h
  · rw [if_neg htaken] at hdistinct ⊢
    refine ⟨hdistinct, nodup_putMember h.stored, ?_⟩
    intro name position
    have hnames : (⟨table.entries ++ [entry]⟩ : Index).names =
        table.toIndex.names ++ [entry.qualifiedName] := by
      simp [Index.names, toIndex]
    have hlength : table.toIndex.names.length = table.entries.length := List.length_map _
    show getMember? name (putMember entry.qualifiedName table.entries.length table.positions) =
        some position ↔ (⟨table.entries ++ [entry]⟩ : Index).names[position]? = some name
    rw [getMember?_putMember, hnames, getElem?_concat_eq_some_iff, hlength, ← h.position_iff]
    by_cases hname : name = entry.qualifiedName
    · -- no position was stored for the new name
      have hfree : getMember? name table.positions ≠ some position := by
        intro hstored
        refine htaken ?_
        rw [hasMember, ← hname, hstored]
        rfl
      rw [if_pos hname, Option.some.injEq]
      constructor
      · rintro rfl
        exact .inr ⟨rfl, hname.symm⟩
      · rintro (hstored | ⟨hlast, -⟩)
        · exact absurd hstored hfree
        · exact hlast.symm
    · rw [if_neg hname]
      exact (or_iff_left fun hlast => hname hlast.2.symm).symm

/-- A change that keeps qualified names keeps those of the table. -/
theorem names_modifyAt {change : TypeEntry → TypeEntry}
    (hkeeps : ∀ entry, (change entry).qualifiedName = entry.qualifiedName) (position : Nat) :
    (table.modifyAt position change).toIndex.names = table.toIndex.names := by
  refine List.ext_getElem? fun i => ?_
  simp only [toIndex, modifyAt, Index.names, List.getElem?_map, List.getElem?_modify,
    Option.map_eq_map, Option.map_map]
  refine congrArg (fun f => Option.map f table.entries[i]?) (funext fun entry => ?_)
  show (if position = i then change entry else entry).qualifiedName = entry.qualifiedName
  split
  · exact hkeeps entry
  · rfl

/-- A change that keeps qualified names keeps a table exact. -/
theorem Exact.modifyAt (h : table.Exact) {change : TypeEntry → TypeEntry}
    (hkeeps : ∀ entry, (change entry).qualifiedName = entry.qualifiedName) (position : Nat) :
    (table.modifyAt position change).Exact where
  distinct := by
    rw [Index.Distinct, names_modifyAt hkeeps]
    exact h.distinct
  stored := h.stored
  position_iff := by
    rw [names_modifyAt hkeeps]
    exact h.position_iff

/-- Changing the entry at the position of a name is changing the entry of the name. -/
theorem Exact.toIndex_modifyAt (h : table.Exact) {name : String} {position : Nat}
    (hname : table.toIndex.names[position]? = some name) (change : TypeEntry → TypeEntry) :
    (table.modifyAt position change).toIndex = table.toIndex.modify name change := by
  rw [Index.modify, toIndex, NameTable.modifyAt, Index.mk.injEq]
  refine List.ext_getElem? fun i => ?_
  rw [List.getElem?_modify, List.getElem?_map]
  cases hentry : table.entries[i]? with
  | none =>
      rw [toIndex, hentry]
      rfl
  | some entry =>
      have hown : table.toIndex.names[i]? = some entry.qualifiedName := by
        rw [Index.names, List.getElem?_map, toIndex, hentry]
        rfl
      rw [toIndex, hentry, Option.map_some]
      -- names are distinct, so the name is at this position only
      by_cases hi : position = i
      · obtain rfl : entry.qualifiedName = name := by
          rw [hi, hown, Option.some.injEq] at hname
          exact hname
        simp [hi]
      · have hne : entry.qualifiedName ≠ name := by
          rintro rfl
          have hsame := h.position_iff.mpr hown
          rw [h.position_iff.mpr hname, Option.some.injEq] at hsame
          exact hi hsame
        simp [hi, hne]

/-- Attributes in front change no qualified name. -/
theorem Exact.prependAttrs (h : table.Exact) (declared : String × List Attribute) :
    (table.prependAttrs declared).Exact := by
  unfold NameTable.prependAttrs
  split
  · refine h.modifyAt ?_ _
    intro entry
    rfl
  · exact h

/-- Changing the entry of a name that no entry has changes nothing. -/
theorem modify_of_get?_eq_none {index : Index} {name : String} (h : index.get? name = none)
    (change : TypeEntry → TypeEntry) : index.modify name change = index := by
  rw [Index.get?, List.find?_eq_none] at h
  have hsame : index.entries.map
      (fun entry => if entry.qualifiedName == name then change entry else entry) =
        index.entries.map id :=
    List.map_congr_left fun entry hentry => if_neg (h entry hentry)
  rw [Index.modify, hsame, List.map_id]

/-- Putting attributes in front is the same with and without positions. -/
theorem Exact.toIndex_prependAttrs (h : table.Exact) (declared : String × List Attribute) :
    (table.prependAttrs declared).toIndex = table.toIndex.prependAttrs declared := by
  unfold NameTable.prependAttrs Index.prependAttrs
  split
  · next position hposition => exact h.toIndex_modifyAt (h.position_iff.mp hposition) _
  · next hnone => exact (modify_of_get?_eq_none (h.get?_eq_none hnone) _).symm

/-! ## Implementation blocks -/

/-- At the position of an implementation block is its target. -/
theorem Exact.target_of_position? (h : table.Exact) {placed : PlacedImpl} {position : Nat}
    (hposition : table.position? placed = some position) :
    ∃ entry, table.entries[position]? = some entry ∧ placed.IsFor entry ∧
      table.toIndex.implTarget? placed = some entry.qualifiedName := by
  rw [position?, Option.or_eq_some_iff] at hposition
  -- the qualified name is stored, or else the first struct of the short name counts
  rcases hposition with hstored | ⟨hnone, hfirst⟩
  · have hname := h.position_iff.mp hstored
    have htarget : table.toIndex.implTarget? placed =
        some (qualify placed.modulePath placed.typeName) :=
      if_pos (Index.isSome_get?_iff.mpr (List.mem_of_getElem? hname))
    rw [Index.names, List.getElem?_map, Option.map_eq_some_iff] at hname
    obtain ⟨entry, hentry, hown⟩ := hname
    exact ⟨entry, hentry, .inl hown, by rw [htarget, hown]⟩
  · obtain ⟨hlt, hstruct, hbefore⟩ := List.findIdx?_eq_some_iff_getElem.mp hfirst
    have hfind : table.entries.find?
        (fun entry => entry.kind == .struct && entry.name == placed.typeName) =
          some table.entries[position] := by
      rw [List.find?_eq_some_iff_getElem]
      refine ⟨hstruct, position, hlt, rfl, fun j hj => ?_⟩
      rw [Bool.eq_false_iff.mpr (hbefore j hj)]
      rfl
    refine ⟨table.entries[position], List.getElem?_eq_getElem hlt, .inr ?_, ?_⟩
    · simpa using hstruct
    · rw [Index.implTarget?, h.get?_eq_none hnone, toIndex, hfind]
      rfl

/-- An implementation block without a position has no target, and its name is free. -/
theorem Exact.implTarget?_eq_none (h : table.Exact) {placed : PlacedImpl}
    (hposition : table.position? placed = none) :
    table.toIndex.implTarget? placed = none ∧
      table.toIndex.get? placed.undefinedEntry.qualifiedName = none := by
  rw [position?, Option.or_eq_none_iff] at hposition
  have hfree := h.get?_eq_none hposition.1
  refine ⟨?_, hfree⟩
  have hnone : table.entries.find?
      (fun entry => entry.kind == .struct && entry.name == placed.typeName) = none := by
    rw [List.find?_eq_none]
    intro entry hentry hstruct
    rw [List.findIdx?_eq_none_iff.mp hposition.2 entry hentry] at hstruct
    exact Bool.false_ne_true hstruct
  rw [Index.implTarget?, hfree, toIndex, hnone]
  rfl

/-- An entry is inserted at the end where its name is free. -/
theorem Exact.entries_insert (h : table.Exact) {entry : TypeEntry}
    (hfree : table.toIndex.get? entry.qualifiedName = none) :
    (table.insert entry).entries = table.entries ++ [entry] := by
  have hindex := h.toIndex_insert entry
  rw [Index.insert, hfree] at hindex
  exact congrArg Index.entries hindex

/-- Placing an implementation block keeps the table exact and what it has. The position is that of
an entry that the block is for, and this entry is the block's target where it has one. -/
theorem Exact.place (h : table.Exact) (placed : PlacedImpl) :
    (table.place placed).1.Exact ∧
      ∃ added entry, (table.place placed).1.entries = table.entries ++ added ∧
        (∀ new ∈ added, new = placed.undefinedEntry) ∧
        (table.entries ++ added)[(table.place placed).2]? = some entry ∧ placed.IsFor entry := by
  rw [NameTable.place]
  cases hposition : table.position? placed with
  | some position =>
      obtain ⟨entry, hentry, hfor, -⟩ := h.target_of_position? hposition
      refine ⟨h, [], entry, (List.append_nil _).symm, List.forall_mem_nil _, ?_, hfor⟩
      rw [List.append_nil]
      exact hentry
  | none =>
      obtain ⟨-, hfree⟩ := h.implTarget?_eq_none hposition
      have hentries := h.entries_insert hfree
      refine ⟨h.insert _, [placed.undefinedEntry], placed.undefinedEntry, hentries,
        fun new hnew => List.mem_singleton.mp hnew, ?_, .inl rfl⟩
      show (table.entries ++ [placed.undefinedEntry])[
        (table.insert placed.undefinedEntry).entries.length - 1]? = _
      rw [hentries, List.length_append, List.length_singleton, Nat.add_sub_cancel,
        List.getElem?_concat_length]

/-- Attaching an implementation block keeps a table exact. -/
theorem Exact.attach (h : table.Exact) (placed : PlacedImpl) : (table.attach placed).Exact :=
  (h.place placed).1.modifyAt (Index.qualifiedName_extendBy placed.item) _

/-- Attaching an implementation block is the same with and without positions. -/
theorem Exact.toIndex_attach (h : table.Exact) (placed : PlacedImpl) :
    (table.attach placed).toIndex = table.toIndex.attach placed := by
  rw [NameTable.attach, NameTable.place, Index.attach]
  cases hposition : table.position? placed with
  | some position =>
      obtain ⟨entry, hentry, -, htarget⟩ := h.target_of_position? hposition
      rw [htarget]
      refine h.toIndex_modifyAt ?_ _
      rw [Index.names, List.getElem?_map, toIndex, hentry]
      rfl
  | none =>
      obtain ⟨htarget, hfree⟩ := h.implTarget?_eq_none hposition
      have hentries := h.entries_insert hfree
      have hlast : (table.insert placed.undefinedEntry).toIndex.names[
          (table.insert placed.undefinedEntry).entries.length - 1]? =
            some placed.undefinedEntry.qualifiedName := by
        rw [Index.names, List.getElem?_map, toIndex, hentries, List.length_append,
          List.length_singleton, Nat.add_sub_cancel, List.getElem?_concat_length]
        rfl
      rw [htarget]
      -- the entry is inserted and then changed, or changed and then inserted
      refine ((h.insert _).toIndex_modifyAt hlast _).trans ?_
      have hsame := congrArg Index.entries
        (modify_of_get?_eq_none hfree (Index.extendBy placed.item))
      have hinsert (entry : TypeEntry)
          (hname : entry.qualifiedName = placed.undefinedEntry.qualifiedName) :
          table.toIndex.insert entry = ⟨table.entries ++ [entry]⟩ := by
        rw [Index.insert, hname, hfree]
        rfl
      rw [h.toIndex_insert, hinsert _ rfl]
      refine Eq.trans ?_ (hinsert _ (Index.qualifiedName_extendBy placed.item _)).symm
      rw [Index.modify] at hsame ⊢
      rw [List.map_append, List.map_singleton, if_pos (beq_self_eq_true _)]
      exact congrArg (fun entries => (⟨entries ++ [_]⟩ : Index)) hsame

/-! ## Owners of implementation blocks -/

/-- The positions that implementation blocks are attached to, one block after the other. -/
def owners (table : NameTable) : List PlacedImpl → List Nat
  | [] => []
  | placed :: rest => (table.place placed).2 :: (table.attach placed).owners rest

/-- The implementation blocks that are attached to a position, in order. -/
def blocksAt (position : Nat) (owners : List Nat) (impls : List PlacedImpl) : List PlacedImpl :=
  ((owners.zip impls).filter fun owned => owned.1 == position).map Prod.snd

theorem blocksAt_cons (position owner : Nat) (owners : List Nat) (placed : PlacedImpl)
    (impls : List PlacedImpl) :
    blocksAt position (owner :: owners) (placed :: impls) =
      if owner = position then placed :: blocksAt position owners impls
      else blocksAt position owners impls := by
  rw [blocksAt, List.zip_cons_cons, List.filter_cons]
  by_cases h : owner = position
  · rw [if_pos (beq_iff_eq.mpr h), if_pos h]
    rfl
  · rw [if_neg (h ∘ beq_iff_eq.mp), if_neg h]
    rfl

/-- The implementation blocks are attached to entries: each has one owner, which is an entry that it
is for, and each entry has got what the blocks say that it owns, in order, and nothing else. -/
structure Attached (before : List TypeEntry) (impls : List PlacedImpl) (owners : List Nat)
    (added after : List TypeEntry) : Prop where
  /-- Each block has one owner. -/
  length_owners : owners.length = impls.length
  /-- Entries are added only for types that are not known. -/
  undefined : ∀ new ∈ added, ∃ placed ∈ impls, new = placed.undefinedEntry
  /-- Each owner is the position of an entry that the block is for. -/
  isFor : ∀ owned ∈ owners.zip impls,
    ∃ entry, (before ++ added)[owned.1]? = some entry ∧ owned.2.IsFor entry
  entries_eq : after = (before ++ added).mapIdx fun i entry =>
    { entry with
      attrs := entry.attrs ++
        (blocksAt i owners impls).flatMap fun placed => placed.item.givenAttrs
      methods := entry.methods ++
        (blocksAt i owners impls).flatMap fun placed => placed.item.methods
      traits := entry.traits ++
        (blocksAt i owners impls).filterMap fun placed => placed.item.traitName }

/-- A block is for an entry whatever other blocks say of the entry. -/
theorem isFor_extendBy_iff {placed : PlacedImpl} {item : ImplItem} {entry : TypeEntry} :
    placed.IsFor (Index.extendBy item entry) ↔ placed.IsFor entry := by
  unfold Index.extendBy
  split <;> exact Iff.rfl

/-- Blocks that are attached one after the other are attached. -/
theorem Exact.attached_foldl (h : table.Exact) (impls : List PlacedImpl) :
    ∃ added, Attached table.entries impls (table.owners impls) added
      (impls.foldl NameTable.attach table).entries := by
  induction impls generalizing table with
  | nil =>
      refine ⟨[], rfl, List.forall_mem_nil _, List.forall_mem_nil _, ?_⟩
      have hnone (i : Nat) : blocksAt i (table.owners []) [] = [] := rfl
      rw [List.append_nil, List.foldl_nil]
      refine List.ext_getElem? fun i => ?_
      rw [List.getElem?_mapIdx]
      cases table.entries[i]? with
      | none => rfl
      | some entry => simp [hnone]
  | cons placed rest ih =>
      obtain ⟨-, new, own, hplace, hnew, hown, hfor⟩ := h.place placed
      obtain ⟨added, hadded⟩ := ih (h.attach placed)
      -- the block changes an entry in front of all that later blocks add
      have hattach : (table.attach placed).entries ++ added =
          (table.entries ++ (new ++ added)).modify (table.place placed).2
            (Index.extendBy placed.item) := by
        have hlt := (List.getElem?_eq_some_iff.mp hown).1
        rw [← List.append_assoc, modify_append_left hlt, ← hplace]
        rfl
      refine ⟨new ++ added, ?_, ?_, ?_, ?_⟩
      · rw [owners, List.length_cons, List.length_cons, hadded.length_owners]
      · rw [List.forall_mem_append]
        constructor
        · exact fun entry hentry => ⟨placed, List.mem_cons_self, hnew entry hentry⟩
        · intro entry hentry
          obtain ⟨other, hother, heq⟩ := hadded.undefined entry hentry
          exact ⟨other, List.mem_cons_of_mem _ hother, heq⟩
      · rw [owners, List.zip_cons_cons, List.forall_mem_cons]
        constructor
        · refine ⟨own, ?_, hfor⟩
          rw [← List.append_assoc,
            List.getElem?_append_left (List.getElem?_eq_some_iff.mp hown).1]
          exact hown
        · intro owned howned
          obtain ⟨entry, hentry, hownedFor⟩ := hadded.isFor owned howned
          rw [hattach, List.getElem?_modify] at hentry
          obtain ⟨entry', hentry', rfl⟩ := Option.map_eq_some_iff.mp hentry
          refine ⟨entry', hentry', ?_⟩
          split at hownedFor
          · exact isFor_extendBy_iff.mp hownedFor
          · exact hownedFor
      · rw [List.foldl_cons, hadded.entries_eq, hattach]
        -- at the position of the entry the block comes before the others that are attached there
        refine List.ext_getElem? fun i => ?_
        rw [List.getElem?_mapIdx, List.getElem?_mapIdx, List.getElem?_modify, Option.map_eq_map,
          Option.map_map]
        refine congrArg (fun f => Option.map f _) (funext fun entry => ?_)
        rw [owners, blocksAt_cons, Function.comp_apply]
        by_cases hi : (table.place placed).2 = i
        · rw [if_pos hi, if_pos hi, ← foldl_extendBy, ← foldl_extendBy, List.foldl_cons]
        · rw [if_neg hi, if_neg hi]

end NameTable

/-! ## Indexing in one pass -/

/-- A table on the way after definitions. -/
def Indexing.add (state : Indexing) (d : Definitions) : Indexing where
  table := d.entries.foldl NameTable.insert state.table
  impls := state.impls ++ d.impls
  moduleAttrs := state.moduleAttrs ++ d.moduleAttrs

theorem Indexing.add_append (state : Indexing) (d d' : Definitions) :
    state.add (d.append d') = (state.add d).add d' := by
  simp [Indexing.add, Definitions.append, List.append_assoc]

theorem Indexing.add_nothing (state : Indexing) : state.add {} = state := by
  simp [Indexing.add]

/-- Definitions with one more entry. -/
theorem Indexing.add_entry (state : Indexing) (d : Definitions) (entry : TypeEntry) :
    state.add { d with entries := d.entries ++ [entry] } = (state.add d).insert entry := by
  simp [Indexing.add, Indexing.insert]

mutual

/-- Indexing an item adds what the item defines. -/
theorem Item.index_eq (modulePath path : String) (state : Indexing) : ∀ item : Item,
    item.index modulePath path state = state.add (item.definitions modulePath path)
  | .struct item _ => by simp [Item.index, Item.definitions, Indexing.add, Indexing.insert]
  | .implementation item _ => by simp [Item.index, Item.definitions, Indexing.add]
  | .function _ _ => (state.add_nothing).symm
  | .module attrs name (some content) _ => by
      rw [Item.index, Item.definitions, Indexing.add_entry, indexItems_eq]
  | .module attrs name none _ => by simp [Item.index, Item.definitions, Indexing.add]
  | .other _ => (state.add_nothing).symm

/-- Indexing the items of a module adds what they define. -/
theorem indexItems_eq (modulePath path : String) (state : Indexing) : ∀ items : List Item,
    indexItems modulePath path state items = state.add (definitionsOf modulePath path items)
  | [] => (state.add_nothing).symm
  | item :: rest => by
      rw [indexItems, definitionsOf, Indexing.add_append, Item.index_eq, indexItems_eq]

end

/-- Indexing a file adds what the file defines. -/
theorem ModuleFile.index_eq (state : Indexing) (m : ModuleFile) :
    m.index state = state.add m.definitions := by
  rw [ModuleFile.index, ModuleFile.definitions, indexItems_eq, Indexing.add_entry]

/-- Indexing files adds what they define. -/
theorem foldl_index_eq (files : List ModuleFile) :
    files.foldl (fun state m => m.index state) {} =
      Indexing.add {} (Definitions.ofFiles files) := by
  induction files using List.reverseRecOn with
  | nil => rfl
  | append_singleton files m ih =>
      have hlast : Definitions.ofFiles (files ++ [m]) =
          (Definitions.ofFiles files).append m.definitions := by
        rw [Definitions.ofFiles, Definitions.ofFiles, List.map_append, List.foldl_append]
        rfl
      rw [List.foldl_append, ih, hlast, Indexing.add_append, ← ModuleFile.index_eq]
      rfl

mutual

/-- The implementation blocks of an item, also those in modules within it. -/
def Item.implBlocks : Item → List ImplItem
  | .implementation item _ => [item]
  | .module _ _ (some content) _ => implBlocksOf content
  | .struct _ _ => []
  | .function _ _ => []
  | .module _ _ none _ => []
  | .other _ => []

/-- The implementation blocks of items, also those in modules within them. -/
def implBlocksOf : List Item → List ImplItem
  | [] => []
  | item :: rest => item.implBlocks ++ implBlocksOf rest

end

/-- An implementation block is placed if it is for a path. -/
theorem ImplItem.map_item_placed (modulePath path : String) (item : ImplItem) :
    (item.placed modulePath path).map PlacedImpl.item =
      [item].filter fun item => item.selfType.lastSegment?.isSome := by
  rw [ImplItem.placed]
  cases hsegment : item.selfType.lastSegment? with
  | none => simp [hsegment]
  | some segment => simp [hsegment]

mutual

/-- Of the implementation blocks of an item those for a path are placed. -/
theorem Item.impls_definitions (modulePath path : String) : ∀ item : Item,
    (item.definitions modulePath path).impls.map PlacedImpl.item =
      item.implBlocks.filter fun item => item.selfType.lastSegment?.isSome
  | .struct _ _ => rfl
  | .implementation item _ => item.map_item_placed modulePath path
  | .function _ _ => rfl
  | .module _ name (some content) _ => by
      rw [Item.definitions, Item.implBlocks]
      exact impls_definitionsOf (qualify modulePath name) path content
  | .module _ _ none _ => rfl
  | .other _ => rfl

/-- Of the implementation blocks of items those for a path are placed. -/
theorem impls_definitionsOf (modulePath path : String) : ∀ items : List Item,
    (definitionsOf modulePath path items).impls.map PlacedImpl.item =
      (implBlocksOf items).filter fun item => item.selfType.lastSegment?.isSome
  | [] => rfl
  | item :: rest => by
      rw [definitionsOf, implBlocksOf, List.filter_append,
        ← Item.impls_definitions modulePath path item,
        ← impls_definitionsOf modulePath path rest, ← List.map_append]
      rfl

end

/-! ## Tables of files -/

namespace NameTable

/-- Steps that keep tables exact, and are the same with and without positions, are so one after the
other. -/
theorem Exact.foldl {σ : Type} {step : NameTable → σ → NameTable}
    {indexStep : Index → σ → Index}
    (hstep : ∀ {table : NameTable}, table.Exact → ∀ s,
      (step table s).Exact ∧ (step table s).toIndex = indexStep table.toIndex s)
    {table : NameTable} (h : table.Exact) (steps : List σ) :
    (steps.foldl step table).Exact ∧
      (steps.foldl step table).toIndex = steps.foldl indexStep table.toIndex := by
  induction steps generalizing table with
  | nil => exact ⟨h, rfl⟩
  | cons s steps ih =>
      obtain ⟨hexact, hindex⟩ := hstep h s
      rw [List.foldl_cons, List.foldl_cons, ← hindex]
      exact ih hexact

/-- The table of the structs and modules that are defined. -/
def ofEntries (entries : List TypeEntry) : NameTable :=
  entries.foldl insert {}

theorem exact_ofEntries (entries : List TypeEntry) :
    (ofEntries entries).Exact ∧
      (ofEntries entries).toIndex = entries.foldl Index.insert {} :=
  exact_empty.foldl (fun h entry => ⟨h.insert entry, h.toIndex_insert entry⟩) entries

/-- After an entry was inserted, its name leads to the entry that had the name before, or to it. -/
theorem get?_insert (index : Index) (entry : TypeEntry) (name : String) :
    (index.insert entry).get? name =
      (index.get? name).or ((⟨[entry]⟩ : Index).get? name) := by
  rw [Index.insert]
  by_cases htaken : (index.get? entry.qualifiedName).isSome = true
  · rw [if_pos htaken]
    by_cases hname : entry.qualifiedName = name
    · subst hname
      obtain ⟨found, hfound⟩ := Option.isSome_iff_exists.mp htaken
      rw [hfound, Option.some_or]
    · have hother : (⟨[entry]⟩ : Index).get? name = none :=
        List.find?_cons_of_neg (hname ∘ beq_iff_eq.mp)
      rw [hother, Option.or_none]
  · rw [if_neg htaken]
    exact List.find?_append

/-- The first of several entries of one name counts. -/
theorem get?_foldl_insert (entries : List TypeEntry) (index : Index) (name : String) :
    (entries.foldl Index.insert index).get? name =
      (index.get? name).or ((⟨entries⟩ : Index).get? name) := by
  induction entries generalizing index with
  | nil => exact (Option.or_none).symm
  | cons entry entries ih =>
      rw [List.foldl_cons, ih, get?_insert, Option.or_assoc]
      exact congrArg (Option.or (index.get? name))
        (@List.find?_append _ (fun e : TypeEntry => e.qualifiedName == name) [entry] entries).symm

/-- The table of files has the definitions, the blocks and the attributes of the files. -/
theorem ofFiles_eq (files : List ModuleFile) :
    ofFiles files = (Definitions.ofFiles files).moduleAttrs.foldl prependAttrs
      ((Definitions.ofFiles files).impls.foldl attach
        (ofEntries (Definitions.ofFiles files).entries)) := by
  rw [ofFiles, foldl_index_eq]
  rfl

/-- The table of files is exact, and it is the index of the files. -/
theorem exact_ofFiles (files : List ModuleFile) :
    (ofFiles files).Exact ∧ (ofFiles files).toIndex = Index.ofFiles files := by
  obtain ⟨hentries, hentriesIndex⟩ := exact_ofEntries (Definitions.ofFiles files).entries
  obtain ⟨himpls, himplsIndex⟩ := hentries.foldl
    (fun h placed => ⟨h.attach placed, h.toIndex_attach placed⟩)
    (Definitions.ofFiles files).impls
  obtain ⟨hattrs, hattrsIndex⟩ := himpls.foldl
    (fun h declared => ⟨h.prependAttrs declared, h.toIndex_prependAttrs declared⟩)
    (Definitions.ofFiles files).moduleAttrs
  rw [ofFiles_eq]
  refine ⟨hattrs, ?_⟩
  rw [hattrsIndex, himplsIndex, hentriesIndex]
  rfl

/-! ## Finding -/

/-- What is found by a name. -/
structure Finds (table : NameTable) : Prop where
  /-- The entry of the name, if there is one. -/
  qualified : ∀ name, ∀ entry ∈ table.entries, entry.qualifiedName = soughtName name →
    table.find? name = some entry
  /-- Else the first entry that ends with the name. -/
  ending : ∀ name, (∀ entry ∈ table.entries, entry.qualifiedName ≠ soughtName name) →
    table.find? name = table.entries.find? fun entry =>
      ("::" ++ soughtName name).toList <:+ entry.qualifiedName.toList
  /-- Nothing if no entry has the name or ends with it. -/
  nothing : ∀ name, table.find? name = none ↔ ∀ entry ∈ table.entries,
    entry.qualifiedName ≠ soughtName name ∧
      ¬ ("::" ++ soughtName name).toList <:+ entry.qualifiedName.toList
  /-- An entry is found by its own name. -/
  own : ∀ entry ∈ table.entries, Text.IsTrimmed entry.qualifiedName.toList →
    ¬ "::".toList <+: entry.qualifiedName.toList →
      table.find? entry.qualifiedName = some entry

variable {table : NameTable}

/-- An entry is found by its qualified name. -/
theorem Exact.find?_qualified (h : table.Exact) {name : String} {entry : TypeEntry}
    (hentry : entry ∈ table.entries) (hname : entry.qualifiedName = soughtName name) :
    table.find? name = some entry := by
  obtain ⟨position, hposition⟩ := List.mem_iff_getElem?.mp hentry
  have hstored : getMember? (soughtName name) table.positions = some position := by
    rw [h.position_iff, Index.names, List.getElem?_map, toIndex, hposition, ← hname]
    rfl
  rw [find?, hstored]
  exact hposition

/-- Where no entry has the name, the first that ends with it is found. -/
theorem Exact.find?_ending (h : table.Exact) {name : String}
    (hname : ∀ entry ∈ table.entries, entry.qualifiedName ≠ soughtName name) :
    table.find? name = table.entries.find? fun entry =>
      ("::" ++ soughtName name).toList <:+ entry.qualifiedName.toList := by
  have hfree : getMember? (soughtName name) table.positions = none := by
    rw [Option.eq_none_iff_forall_ne_some]
    intro position hstored
    have hmem := List.mem_of_getElem? (h.position_iff.mp hstored)
    obtain ⟨entry, hentry, heq⟩ := List.mem_map.mp hmem
    exact hname entry hentry heq
  rw [find?, hfree]
  refine List.find?_congr fun entry hentry => ?_
  rw [beq_false_of_ne (hname entry hentry), Bool.or_false, Bool.eq_iff_iff, Text.endsWith_iff,
    decide_eq_true_iff]

/-- An exact table finds entries by their names. -/
theorem Exact.finds (h : table.Exact) : table.Finds where
  qualified := by
    intro name entry hentry hname
    exact h.find?_qualified hentry hname
  ending := by
    intro name hname
    exact h.find?_ending hname
  nothing := by
    intro name
    by_cases hname : ∀ entry ∈ table.entries, entry.qualifiedName ≠ soughtName name
    · rw [h.find?_ending hname, List.find?_eq_none]
      refine forall₂_congr fun entry hentry => ?_
      rw [decide_eq_true_iff, and_iff_right (hname entry hentry)]
    · push Not at hname
      obtain ⟨entry, hentry, heq⟩ := hname
      rw [h.find?_qualified hentry heq]
      exact iff_of_false (Option.some_ne_none _) fun hnone => (hnone entry hentry).1 heq
  own := by
    intro entry hentry htrimmed hfront
    refine h.find?_qualified hentry ?_
    rw [soughtName, htrimmed.trimChars_eq, Index.dropLeadingColons_eq_self hfront,
      String.ofList_toList]

/-- An index finds the entry of a name, or else the first that ends with it. -/
theorem find?_eq_or (index : Index) (name : String) :
    index.find? name = (index.get? (soughtName name)).or (index.entries.find? fun entry =>
      Text.endsWith entry.qualifiedName ("::" ++ soughtName name)) := by
  have hname : String.ofList (Index.dropLeadingColons (Text.trimChars name.toList)) =
      soughtName name := rfl
  rw [Index.find?, hname]
  cases index.get? (soughtName name) with
  | some entry => rfl
  | none => rfl

/-- Finding is the same with and without positions. -/
theorem Exact.find?_eq (h : table.Exact) (name : String) :
    table.find? name = table.toIndex.find? name := by
  rw [find?_eq_or]
  cases hget : table.toIndex.get? (soughtName name) with
  | some entry =>
      refine h.find?_qualified (List.mem_of_find?_eq_some hget) ?_
      simpa using List.find?_some hget
  | none =>
      have hname : ∀ entry ∈ table.entries, entry.qualifiedName ≠ soughtName name := by
        rw [Index.get?, List.find?_eq_none] at hget
        intro entry hentry heq
        exact hget entry hentry (beq_iff_eq.mpr heq)
      rw [h.find?_ending hname]
      refine List.find?_congr fun entry hentry => ?_
      rw [Bool.eq_iff_iff, Text.endsWith_iff, decide_eq_true_iff]

/-- The table of files is exact and is the index of the files. Each implementation block of the
files for a path is attached to one entry, in order, where the first of several definitions of a
name counts; then the attributes of modules in other files are put in front. What is found by a name
is the entry of the name or else the first that ends with it. -/
theorem ofFiles_finds (files : List ModuleFile) :
    (ofFiles files).Exact ∧
      (∃ first added after owners,
        (∀ name, (⟨first⟩ : Index).get? name =
          (⟨(Definitions.ofFiles files).entries⟩ : Index).get? name) ∧
        (Definitions.ofFiles files).impls.map PlacedImpl.item =
          (files.flatMap fun m => implBlocksOf m.file.items).filter
            (fun item => item.selfType.lastSegment?.isSome) ∧
        Attached first (Definitions.ofFiles files).impls owners added after ∧
        (ofFiles files).entries = after.map fun entry =>
          { entry with attrs := (Definitions.ofFiles files).declaredFor entry ++ entry.attrs }) ∧
      (ofFiles files).Finds ∧
      (ofFiles files).toIndex = Index.ofFiles files ∧
      ∀ name, (ofFiles files).find? name = (Index.ofFiles files).find? name := by
  obtain ⟨hexact, hindex⟩ := exact_ofFiles files
  refine ⟨hexact, ?_, hexact.finds, hindex, ?_⟩
  · obtain ⟨hentries, hentriesIndex⟩ := exact_ofEntries (Definitions.ofFiles files).entries
    obtain ⟨added, hattached⟩ := hentries.attached_foldl (Definitions.ofFiles files).impls
    -- entries are inserted first, then blocks are attached, then attributes are put in front
    refine ⟨_, added, _, _, ?_, ?_, hattached, ?_⟩
    · intro name
      have hget := get?_foldl_insert (Definitions.ofFiles files).entries {} name
      rw [← hentriesIndex] at hget
      exact hget
    · rw [Definitions.ofFiles_eq, List.map_flatMap, List.filter_flatMap]
      refine List.flatMap_congr fun m _ => ?_
      exact impls_definitionsOf m.modulePath m.path m.file.items
    · obtain ⟨himpls, -⟩ := hentries.foldl
        (fun h placed => ⟨h.attach placed, h.toIndex_attach placed⟩)
        (Definitions.ofFiles files).impls
      obtain ⟨-, hattrs⟩ := himpls.foldl
        (fun h declared => ⟨h.prependAttrs declared, h.toIndex_prependAttrs declared⟩)
        (Definitions.ofFiles files).moduleAttrs
      have hentriesEq := congrArg Index.entries hattrs
      rw [toIndex, toIndex, Index.foldl_prependAttrs] at hentriesEq
      rw [ofFiles_eq]
      refine hentriesEq.trans ?_
      simp only [foldl_prepend]
      rfl
  · intro name
    rw [hexact.find?_eq, hindex]

end NameTable

end AnnotatedApi.Source
