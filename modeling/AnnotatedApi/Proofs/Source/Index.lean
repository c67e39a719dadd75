import AnnotatedApi.Source.Index
import AnnotatedApi.Proofs.Text.Blank

/-! # Names in the index

An index is filled by three kinds of steps: an entry is inserted, an implementation block is
attached, and attributes are put in front of those of an entry. Each step leaves the qualified names
of the entries different from one another, so an entry is told by its name, and a name without
blanks around it finds whatever entry goes by it. -/

namespace AnnotatedApi.Source.Index

/-! ## Different names -/

/-- The qualified names of the entries. -/
def names (index : Index) : List String :=
  index.entries.map TypeEntry.qualifiedName

/-- No two entries have one qualified name. -/
def Distinct (index : Index) : Prop :=
  index.names.Nodup

variable {index : Index}

/-- There is an entry of a qualified name exactly when the name is among the names. -/
theorem isSome_get?_iff {name : String} : (index.get? name).isSome = true ↔ name ∈ index.names := by
  simp only [get?, names, List.find?_isSome, beq_iff_eq, List.mem_map]

/-- In an index with different names, each entry is found by its own. -/
theorem Distinct.get?_qualifiedName (h : index.Distinct) {entry : TypeEntry}
    (hentry : entry ∈ index.entries) : index.get? entry.qualifiedName = some entry := by
  obtain ⟨entries⟩ := index
  rw [Distinct, names] at h
  rw [get?]
  induction entries with
  | nil => exact absurd hentry List.not_mem_nil
  | cons first rest ih =>
      rw [List.map_cons, List.nodup_cons] at h
      rcases List.mem_cons.mp hentry with rfl | hrest
      · simp
      · have hne : first.qualifiedName ≠ entry.qualifiedName := fun heq =>
          h.1 (heq ▸ List.mem_map_of_mem hrest)
        rw [List.find?_cons_of_neg (by simpa using hne)]
        exact ih h.2 hrest

/-! ## Steps that fill an index -/

/-- Inserting an entry leaves the names different. -/
theorem Distinct.insert (h : index.Distinct) (entry : TypeEntry) :
    (index.insert entry).Distinct := by
  unfold Index.insert
  split
  · exact h
  · next hfree =>
    rw [isSome_get?_iff] at hfree
    have hnames : (⟨index.entries ++ [entry]⟩ : Index).names =
        index.names ++ [entry.qualifiedName] := by simp [names]
    rw [Distinct, hnames, List.nodup_append]
    refine ⟨h, List.pairwise_singleton _ _, ?_⟩
    rintro name hname _ hnew rfl
    exact hfree (List.mem_singleton.mp hnew ▸ hname)

/-- A change of an entry that keeps its name keeps all names. -/
theorem names_modify {change : TypeEntry → TypeEntry}
    (hkeeps : ∀ entry, (change entry).qualifiedName = entry.qualifiedName) (name : String) :
    (index.modify name change).names = index.names := by
  simp only [names, modify, List.map_map]
  refine List.map_congr_left fun entry _ => ?_
  show (if entry.qualifiedName == name then change entry else entry).qualifiedName = _
  split
  · exact hkeeps entry
  · rfl

/-- An implementation block does not change the name of its entry. -/
@[simp] theorem qualifiedName_extendBy (item : ImplItem) (entry : TypeEntry) :
    (extendBy item entry).qualifiedName = entry.qualifiedName := by
  unfold extendBy
  split <;> rfl

/-- Attaching an implementation block leaves the names different. -/
theorem Distinct.attach (h : index.Distinct) (placed : PlacedImpl) :
    (index.attach placed).Distinct := by
  unfold Index.attach
  split
  · rw [Distinct, names_modify (qualifiedName_extendBy placed.item)]
    exact h
  · exact h.insert _

/-- Putting attributes in front leaves the names different. -/
theorem Distinct.prependAttrs (h : index.Distinct) (declared : String × List Attribute) :
    (index.prependAttrs declared).Distinct := by
  have hnames : (index.prependAttrs declared).names = index.names := by
    unfold Index.prependAttrs
    refine names_modify ?_ declared.1
    intro entry
    rfl
  rw [Distinct, hnames]
  exact h

/-- The index of definitions has different names. -/
theorem distinct_ofDefinitions (definitions : Definitions) :
    (ofDefinitions definitions).Distinct := by
  have hentries : (definitions.entries.foldl Index.insert {}).Distinct :=
    List.foldlRecOn _ _ (motive := Distinct) List.nodup_nil fun _ h entry _ => h.insert entry
  have himpls : (definitions.impls.foldl Index.attach
      (definitions.entries.foldl Index.insert {})).Distinct :=
    List.foldlRecOn _ _ (motive := Distinct) hentries fun _ h placed _ => h.attach placed
  exact List.foldlRecOn _ _ (motive := Distinct) himpls
    fun _ h declared _ => h.prependAttrs declared

/-- The index of source files has different names. -/
theorem distinct_ofFiles (files : List ModuleFile) : (ofFiles files).Distinct :=
  distinct_ofDefinitions _

/-! ## Finding by name -/

/-- Pairs of colons in front are there, or there are none. -/
theorem dropLeadingColons_eq_or_suffix (chars : List Char) :
    dropLeadingColons chars = chars ∨ (':' :: ':' :: dropLeadingColons chars) <:+ chars := by
  fun_induction dropLeadingColons chars with
  | case1 rest ih =>
      right
      rcases ih with heq | hsuffix
      · refine ⟨[], ?_⟩
        rw [List.nil_append, heq]
      · exact hsuffix.trans ((List.suffix_cons _ _).trans (List.suffix_cons _ _))
  | case2 chars => exact .inl rfl

/-- Nothing is taken off a path that does not start with colons. -/
theorem dropLeadingColons_eq_self {chars : List Char} (h : ¬ [':', ':'] <+: chars) :
    dropLeadingColons chars = chars := by
  unfold dropLeadingColons
  split
  · next rest => exact absurd ⟨rest, rfl⟩ h
  · rfl

/-- A name without blanks around it that finds nothing is the name of no entry, whatever colons it
starts with. -/
theorem get?_eq_none_of_find? {name : String} (htrimmed : Text.IsTrimmed name.toList)
    (h : index.find? name = none) : index.get? name = none := by
  rw [find?, htrimmed.trimChars_eq] at h
  split at h
  · exact absurd h (Option.some_ne_none _)
  · next hnone =>
    rcases dropLeadingColons_eq_or_suffix name.toList with heq | hsuffix
    · rw [heq, String.ofList_toList] at hnone
      exact hnone
    · -- an entry of the name would end with what is looked for
      rw [List.find?_eq_none] at h
      rw [get?, List.find?_eq_none]
      intro entry hentry hname
      rw [beq_iff_eq] at hname
      refine h entry hentry ?_
      rw [Text.endsWith_iff, hname]
      simpa using hsuffix

/-- What is found is an entry. -/
theorem mem_of_find? {name : String} {entry : TypeEntry} (h : index.find? name = some entry) :
    entry ∈ index.entries := by
  rw [find?] at h
  split at h
  · next found hfound =>
    rw [Option.some.injEq] at h
    rw [← h]
    exact List.mem_of_find?_eq_some hfound
  · exact List.mem_of_find?_eq_some h

end AnnotatedApi.Source.Index
