import AnnotatedApi.Proofs.OpenApi.Answers

/-! # Tags of generated documents

Tags come from the groups and the declared tags of the endpoints and from the configuration. A tag
that is met again only says what was left open so far. `MergedTags` says what this comes to without
naming an algorithm; the tags of operations, which are read off the same annotations in another
way, are among the tags of the document. -/

namespace AnnotatedApi

open Route

/-! ## Merged tags -/

/-- What the first of the tags of a name says that says anything. -/
def firstSet (f : Tag → Option α) (all : List Tag) (name : String) : Option α :=
  (all.filter fun tag => tag.name = name).findSome? f

/-- The tags of all names, each with what is said first about it. -/
structure MergedTags (all tags : List Tag) : Prop where
  /-- No name stands twice. -/
  distinct : (tags.map Tag.name).Nodup
  /-- The names are in the order of first occurrence. -/
  names : FirstSeen (all.map Tag.name) (tags.map Tag.name)
  /-- The description is the first one that is set. -/
  description : ∀ tag ∈ tags, tag.description = firstSet Tag.description all tag.name
  /-- The external documentation is the first one that is set, whoever set the description. -/
  externalDocs : ∀ tag ∈ tags, tag.externalDocs = firstSet Tag.externalDocs all tag.name

/-- What is said last about a name counts when nothing was said before. -/
theorem firstSet_concat (f : Tag → Option α) (all : List Tag) (tag : Tag) (name : String) :
    firstSet f (all ++ [tag]) name =
      if tag.name = name then (firstSet f all name <|> f tag) else firstSet f all name := by
  rw [firstSet, List.filter_append, List.findSome?_append]
  by_cases h : tag.name = name
  · cases hf : f tag <;> simp [firstSet, h, hf]
  · simp [firstSet, h]

/-- Nothing is said about a name that does not occur. -/
theorem firstSet_of_not_mem (f : Tag → Option α) {all : List Tag} {name : String}
    (h : name ∉ all.map Tag.name) : firstSet f all name = none := by
  have hnone : (all.filter fun tag => tag.name = name) = [] := by
    rw [List.filter_eq_nil_iff]
    intro tag htag heq
    exact h (List.mem_map.mpr ⟨tag, htag, of_decide_eq_true heq⟩)
  rw [firstSet, hnone]
  rfl

/-! ## Adding one tag -/

/-- Adding a tag adds its name at the end, unless it is there. -/
theorem map_name_addTag (tag : Tag) (done : List Tag) :
    (addTag tag done).map Tag.name =
      if tag.name ∈ done.map Tag.name then done.map Tag.name
      else done.map Tag.name ++ [tag.name] := by
  induction done with
  | nil => rfl
  | cons first rest ih =>
      rw [addTag]
      by_cases h : first.name = tag.name
      · simp [h, Tag.completedBy]
      · rw [if_neg h, List.map_cons, ih, List.map_cons]
        by_cases hmem : tag.name ∈ rest.map Tag.name
        · rw [if_pos hmem, if_pos (List.mem_cons_of_mem _ hmem)]
        · rw [if_neg hmem, if_neg (by simp [Ne.symm h, hmem])]
          rfl

/-- After a tag was added, a tag is one that was there under another name, or the one of the name
completed by the new one, or the new one under a new name. -/
theorem of_mem_addTag {tag found : Tag} {done : List Tag} (hdone : (done.map Tag.name).Nodup)
    (h : found ∈ addTag tag done) :
    (found ∈ done ∧ found.name ≠ tag.name) ∨
      (∃ first ∈ done, first.name = tag.name ∧ found = first.completedBy tag) ∨
      (tag.name ∉ done.map Tag.name ∧ found = tag) := by
  induction done with
  | nil => exact .inr (.inr ⟨List.not_mem_nil, List.mem_singleton.mp h⟩)
  | cons first rest ih =>
      rw [List.map_cons, List.nodup_cons] at hdone
      rw [addTag] at h
      by_cases hname : first.name = tag.name
      · rw [if_pos hname] at h
        rcases List.mem_cons.mp h with rfl | hrest
        · exact .inr (.inl ⟨first, List.mem_cons_self, hname, rfl⟩)
        · -- the name in front stands nowhere else
          refine .inl ⟨List.mem_cons_of_mem _ hrest, ?_⟩
          intro heq
          rw [hname, ← heq] at hdone
          exact hdone.1 (List.mem_map_of_mem hrest)
      · rw [if_neg hname] at h
        rcases List.mem_cons.mp h with rfl | hrest
        · exact .inl ⟨List.mem_cons_self, hname⟩
        · rcases ih hdone.2 hrest with ⟨hmem, hne⟩ | ⟨old, hmem, hold⟩ | ⟨hnew, hfound⟩
          · exact .inl ⟨List.mem_cons_of_mem _ hmem, hne⟩
          · exact .inr (.inl ⟨old, List.mem_cons_of_mem _ hmem, hold⟩)
          · refine .inr (.inr ⟨?_, hfound⟩)
            rw [List.map_cons, List.mem_cons, not_or]
            exact ⟨Ne.symm hname, hnew⟩

/-- A part of tags that completion only fills in stays the first one that is set. -/
theorem forall_firstSet_addTag {f : Tag → Option α}
    (hf : ∀ first second : Tag, f (first.completedBy second) = (f first <|> f second))
    {all done : List Tag} (hnames : FirstSeen (all.map Tag.name) (done.map Tag.name))
    (h : ∀ found ∈ done, f found = firstSet f all found.name) (tag : Tag) :
    ∀ found ∈ addTag tag done, f found = firstSet f (all ++ [tag]) found.name := by
  intro found hfound
  rw [firstSet_concat]
  rcases of_mem_addTag hnames.nodup hfound with
    ⟨hmem, hne⟩ | ⟨first, hmem, hname, rfl⟩ | ⟨hnew, rfl⟩
  · rw [if_neg (Ne.symm hne)]
    exact h found hmem
  · have hsame : (first.completedBy tag).name = first.name := rfl
    rw [hsame, if_pos hname.symm, hf, h first hmem]
  · have hnone : firstSet f all found.name = none :=
      firstSet_of_not_mem f fun hold => hnew ((hnames.mem_iff _).mpr hold)
    rw [if_pos rfl, hnone]
    rfl

/-- Adding a tag keeps tags merged. -/
theorem MergedTags.addTag {all done : List Tag} (h : MergedTags all done) (tag : Tag) :
    MergedTags (all ++ [tag]) (addTag tag done) := by
  have hnames : FirstSeen ((all ++ [tag]).map Tag.name)
      ((AnnotatedApi.addTag tag done).map Tag.name) := by
    rw [map_name_addTag, h.names.eq_eraseDups]
    simp only [List.mem_eraseDups]
    rw [← eraseDups_concat, List.map_append]
    exact firstSeen_eraseDups _
  exact ⟨hnames.nodup, hnames,
    forall_firstSet_addTag (fun _ _ => rfl) h.names h.description tag,
    forall_firstSet_addTag (fun _ _ => rfl) h.names h.externalDocs tag⟩

namespace Document

/-- Tags that are added one after the other are merged. -/
theorem mergedTags_tagsOf (all : List Tag) : MergedTags all (tagsOf all) := by
  induction all using List.reverseRecOn with
  | nil =>
      exact ⟨List.nodup_nil, firstSeen_eraseDups [], List.forall_mem_nil _, List.forall_mem_nil _⟩
  | append_singleton all tag ih =>
      rw [tagsOf, List.foldl_append]
      exact ih.addTag tag

/-! ## Tags of operations -/

/-- An endpoint that is not hidden adds its groups and its declared tags. -/
theorem map_name_documentTags {e : Endpoint} (h : e.isHidden = false) :
    e.documentTags.map Tag.name =
      e.groups.map ApiGroupDecl.name ++ e.declared.tags.getD [] := by
  rw [Endpoint.documentTags, h, if_neg Bool.false_ne_true, List.map_append, List.map_map,
    List.map_map]
  exact congrArg _ (List.map_id _)

/-- Where there is a group or a declared tag, these are the tags of the operation. -/
theorem mem_tags_iff {e : Endpoint} (h : e.groups ≠ [] ∨ e.declared.tags.getD [] ≠ [])
    {name : String} :
    name ∈ OperationContext.tags e ↔
      name ∈ e.groups.map ApiGroupDecl.name ++ e.declared.tags.getD [] := by
  -- dropping repetitions neither loses nor adds a name
  have hmem : ∀ other, other ∈ e.declaredTags ↔
      other ∈ e.groups.map ApiGroupDecl.name ++ e.declared.tags.getD [] := by
    intro other
    rw [Endpoint.declaredTags, withoutRepeats, List.mem_eraseDups]
  have hsome : e.groups.map ApiGroupDecl.name ++ e.declared.tags.getD [] ≠ [] := by
    rw [ne_eq, List.append_eq_nil_iff, List.map_eq_nil_iff, not_and_or]
    exact h
  obtain ⟨first, hfirst⟩ := List.exists_mem_of_ne_nil _ hsome
  rw [← hmem, OperationContext.tags]
  split
  · next hnil =>
    rw [← hmem, hnil] at hfirst
    exact absurd hfirst List.not_mem_nil
  · exact Iff.rfl

/-! ## Generated documents -/

/-- The tags of the endpoints in their order, then those of the configuration. -/
def allTags (config : Config) (endpoints : List Endpoint) : List Tag :=
  endpoints.flatMap Endpoint.documentTags ++ config.tags

/-- The tags of a generated document are merged, and operations with a group or a declared tag have
no other tags than the document. -/
theorem mergedTags_generate (config : Config) (endpoints : List Endpoint) (models : List Model) :
    MergedTags (allTags config (shown endpoints)) (generate config endpoints models).tags ∧
      ∀ item ∈ (generate config endpoints models).paths, ∀ stored ∈ item.2,
        ∃ e, Answers (shown endpoints) item.1 stored.1 e ∧
          (e.groups ≠ [] ∨ e.declared.tags.getD [] ≠ [] →
            ∀ name ∈ stored.2.tags,
              name ∈ (generate config endpoints models).tags.map Tag.name) := by
  have hmerged : MergedTags (allTags config (shown endpoints))
      (generate config endpoints models).tags := by
    rw [generate_eq]
    exact mergedTags_tagsOf _
  refine ⟨hmerged, ?_⟩
  intro item hitem stored hstored
  obtain ⟨e, he, hoperation⟩ := exists_answers hitem hstored
  refine ⟨e, he, ?_⟩
  intro hgiven name hname
  have hshown : e ∈ shown endpoints := he.mem.1
  have htags : stored.2.tags = OperationContext.tags e := by
    rw [hoperation]
    rfl
  rw [htags, mem_tags_iff hgiven, ← map_name_documentTags (mem_shown_iff.mp hshown).2] at hname
  rw [hmerged.names.mem_iff, allTags, List.map_append, List.map_flatMap, List.mem_append]
  exact .inl (List.mem_flatMap.mpr ⟨e, hshown, hname⟩)

end Document

end AnnotatedApi
