import AnnotatedApi.Proofs.Schema.Reference
import AnnotatedApi.Proofs.Source.Path

/-! # The spellings of models

A model is referred to by its identifier, by what follows `crate::` in it, and by its last segment.
Models with different identifiers can share spellings, and a later model takes over a spelling of
an earlier one. This does no harm when identifiers are paths: whatever model a spelling stands for,
it leads to the last segment of the spelling. -/

namespace AnnotatedApi.ModelNames

open Source

/-! ## Spellings -/

/-- The ways to refer to the model of an identifier. -/
def spellings (identifier : String) : List String :=
  [identifier] ++
    ((Text.stripFront? "crate::".toList identifier.toList).map String.ofList).toList ++
    [Text.lastSegment identifier]

/-- What follows `crate::` in a path is a path with the same last segment. -/
theorem isPath_of_crate {identifier : String} {rest : List Char} (h : IsPath identifier.toList)
    (hrest : identifier.toList = "crate::".toList ++ rest) :
    IsPath rest ∧ Text.lastSegment (String.ofList rest) = Text.lastSegment identifier := by
  have hcolons : identifier.toList = "crate".toList ++ ':' :: ':' :: rest := hrest
  have hpath : IsPath rest := by
    rw [hcolons] at h
    exact h.of_append (by decide)
  refine ⟨hpath, ?_⟩
  rw [Text.lastSegment, Text.lastSegment, String.toList_ofList, hcolons,
    hpath.lastSegmentFrom_append]

/-- Every spelling of a path is a path with the same last segment. -/
theorem isPath_of_mem_spellings {identifier spelling : String} (h : IsPath identifier.toList)
    (hmem : spelling ∈ spellings identifier) :
    IsPath spelling.toList ∧ Text.lastSegment spelling = Text.lastSegment identifier := by
  simp only [spellings, List.mem_append, List.mem_singleton, Option.mem_toList,
    Option.map_eq_some_iff] at hmem
  rcases hmem with (rfl | ⟨rest, hrest, rfl⟩) | rfl
  · exact ⟨h, rfl⟩
  · rw [String.toList_ofList]
    exact isPath_of_crate h (Text.stripFront?_eq_some_iff.mp hrest)
  · exact ⟨.name h.isName_lastSegment, h.isName_lastSegment.lastSegment_eq⟩

/-- One more identifier adds its spellings to the names. -/
theorem mem_memberNames_add_iff {names : ModelNames} {identifier name : String} :
    name ∈ memberNames (names.add identifier).entries ↔
      name ∈ spellings identifier ∨ name ∈ memberNames names.entries := by
  simp only [add, spellings, mem_memberNames_addMember_iff, List.mem_append, List.mem_singleton,
    Option.mem_toList, Option.map_eq_some_iff]
  cases Text.stripFront? "crate::".toList identifier.toList with
  | none =>
      rw [mem_memberNames_putMember_iff]
      simp only [reduceCtorEq, false_and, exists_false, or_false]
      tauto
  | some relative =>
      simp only [mem_memberNames_putMember_iff, Option.some.injEq, exists_eq_left']
      tauto

/-- The names of models are the spellings of their identifiers. -/
theorem mem_memberNames_ofIdentifiers_iff {identifiers : List String} {name : String} :
    name ∈ memberNames (ofIdentifiers identifiers).entries ↔
      ∃ identifier ∈ identifiers, name ∈ spellings identifier := by
  induction identifiers using List.reverseRecOn with
  | nil => simp [ofIdentifiers]
  | append_singleton identifiers last ih =>
      rw [ofIdentifiers, List.foldl_append, List.foldl_cons, List.foldl_nil,
        mem_memberNames_add_iff]
      rw [ofIdentifiers] at ih
      rw [ih]
      simp only [List.mem_append, List.mem_singleton, or_and_right, exists_or, exists_eq_left]
      exact or_comm

/-! ## What spellings lead to -/

/-- Every name leads to its last segment. -/
def LeadsToLast (names : ModelNames) : Prop :=
  ∀ entry ∈ names.entries, entry.2 = Text.lastSegment entry.1

/-- One more path keeps every name leading to its last segment. -/
theorem LeadsToLast.add {names : ModelNames} (h : names.LeadsToLast) {identifier : String}
    (hpath : IsPath identifier.toList) : (names.add identifier).LeadsToLast := by
  have hwhole : ∀ entry ∈ putMember identifier (Text.lastSegment identifier) names.entries,
      entry.2 = Text.lastSegment entry.1 :=
    forall_mem_putMember rfl h
  refine forall_mem_addMember hpath.isName_lastSegment.lastSegment_eq.symm ?_
  split
  · next relative hstrip =>
    refine forall_mem_putMember ?_ hwhole
    exact (isPath_of_crate hpath (Text.stripFront?_eq_some_iff.mp hstrip)).2.symm
  · exact hwhole

/-- Every name of paths leads to its last segment. -/
theorem leadsToLast_ofIdentifiers {identifiers : List String}
    (h : ∀ identifier ∈ identifiers, IsPath identifier.toList) :
    (ofIdentifiers identifiers).LeadsToLast := by
  rw [ofIdentifiers]
  refine List.foldlRecOn (motive := LeadsToLast) identifiers _ (List.forall_mem_nil _) ?_
  intro names hnames identifier hmem
  exact hnames.add (h identifier hmem)

/-- A path that is a name is resolved to the pointer to its last segment. -/
theorem LeadsToLast.resolve?_eq {names : ModelNames} (h : names.LeadsToLast) {reference : String}
    (hpath : IsPath reference.toList) (hmem : reference ∈ memberNames names.entries) :
    names.resolve? reference = some (schemaPointer (Text.lastSegment reference)) := by
  have hne : reference ≠ "" := by
    rw [ne_eq, ← String.toList_eq_nil_iff]
    exact hpath.ne_nil
  have hfront : ¬ Text.startsWith reference "#/" = true := by
    rw [Text.startsWith_iff]
    rintro ⟨rest, hrest⟩
    exact hpath.head_ne (by rw [← hrest]; rfl)
  obtain ⟨name, hname⟩ : ∃ name, getMember? reference names.entries = some name := by
    rw [← Option.ne_none_iff_exists', ne_eq, getMember?_eq_none_iff, not_not]
    exact hmem
  rw [resolve?, Text.trim_eq_self hpath.isTrimmed]
  simp only [beq_iff_eq, if_neg hne, if_neg hfront, hname]
  have hlast : name = Text.lastSegment reference := h _ (mem_of_getMember? hname)
  rw [hlast]

/-- Every spelling of one of several paths is resolved to the pointer to the path's last segment,
whatever the other paths are. -/
theorem resolve?_of_mem_spellings {identifiers : List String}
    (h : ∀ identifier ∈ identifiers, IsPath identifier.toList) {identifier spelling : String}
    (hmem : identifier ∈ identifiers) (hspelling : spelling ∈ spellings identifier) :
    (ofIdentifiers identifiers).resolve? spelling =
      some (schemaPointer (Text.lastSegment identifier)) := by
  obtain ⟨hpath, hlast⟩ := isPath_of_mem_spellings (h identifier hmem) hspelling
  rw [← hlast]
  refine (leadsToLast_ofIdentifiers h).resolve?_eq hpath ?_
  exact mem_memberNames_ofIdentifiers_iff.mpr ⟨identifier, hmem, hspelling⟩

end AnnotatedApi.ModelNames
