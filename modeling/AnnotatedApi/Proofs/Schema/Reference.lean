import AnnotatedApi.Schema.Reference
import AnnotatedApi.Proofs.Members
import AnnotatedApi.Proofs.Text.Blank

/-! # Resolved references are pointers

Resolving gives pointers: texts that point into the document, have no blanks at their ends and are
resolved to themselves. The names of models need an invariant for this, as the schema of a model is
named by the end of its identifier: a reference without a blank at its end must not lead to a name
with one. -/

namespace AnnotatedApi

/-! ## Pointers -/

/-- A text that points into the document and has no blanks at its ends. -/
structure IsPointer (text : String) : Prop where
  /-- There is nothing to trim. -/
  trimmed : Text.IsTrimmed text.toList
  /-- The text points into the document. -/
  front : "#/".toList <+: text.toList

/-- What every schema pointer starts with is a pointer already. -/
theorem isPointer_schemaPointerFront : IsPointer schemaPointerFront where
  trimmed := by
    constructor
    · intro c hc
      obtain rfl : '#' = c := Option.some.inj hc
      rfl
    · intro c hc
      obtain rfl : '/' = c := Option.some.inj hc
      rfl
  front := ⟨"components/schemas/".toList, rfl⟩

/-- The pointer to a name that does not end with a blank. -/
theorem isPointer_schemaPointer {name : String}
    (h : ∀ c ∈ name.toList.getLast?, Text.isBlank c = false) : IsPointer (schemaPointer name) := by
  constructor
  · rw [schemaPointer, String.toList_append]
    exact isPointer_schemaPointerFront.trimmed.append (by decide) h
  · rw [schemaPointer, String.toList_append]
    exact isPointer_schemaPointerFront.front.trans (List.prefix_append _ _)

/-- No reference is given, or a blank one. -/
def RefersToNothing (reference : Option String) : Prop :=
  ∀ text ∈ reference, Text.isBlankText text = true

namespace ModelNames

/-- A pointer is resolved to itself, whatever the names of models are. -/
theorem resolve?_of_isPointer (names : ModelNames) {pointer : String} (h : IsPointer pointer) :
    names.resolve? pointer = some pointer := by
  have hne : pointer ≠ "" := by
    intro heq
    have hlen := h.front.length_le
    rw [heq] at hlen
    simp at hlen
  rw [resolve?, Text.trim_eq_self h.trimmed]
  simp only [beq_iff_eq, if_neg hne, if_pos (Text.startsWith_iff.mpr h.front)]

/-! ## References that stand for nothing -/

/-- A reference stands for nothing exactly when it is blank, whatever the names of models are. -/
theorem resolve?_eq_none_iff {names : ModelNames} {reference : String} :
    names.resolve? reference = none ↔ Text.isBlankText reference = true := by
  rw [← Text.trim_eq_empty_iff, resolve?]
  simp only [beq_iff_eq]
  split
  · next hblank => exact iff_of_true rfl hblank
  · next hblank =>
    refine iff_of_false ?_ hblank
    split
    · exact Option.some_ne_none _
    · split <;> exact Option.some_ne_none _

/-- An optional reference has no fragment exactly when it refers to nothing. -/
theorem optionalFragment?_eq_none_iff {names : ModelNames} {reference : Option String} :
    names.optionalFragment? reference = none ↔ RefersToNothing reference := by
  rw [optionalFragment?, Option.bind_eq_none_iff]
  simp only [fragment?, Option.map_eq_none_iff, resolve?_eq_none_iff]
  rfl

/-- The fragment of an optional reference is a pointer. -/
theorem exists_ref_of_optionalFragment? {names : ModelNames} {reference : Option String}
    {fragment : Fragment} (h : names.optionalFragment? reference = some fragment) :
    ∃ pointer, fragment = .ref pointer := by
  obtain ⟨text, -, htext⟩ := Option.bind_eq_some_iff.mp h
  obtain ⟨pointer, -, rfl⟩ := Option.map_eq_some_iff.mp htext
  exact ⟨pointer, rfl⟩

/-- Any other reference has a fragment. -/
theorem exists_optionalFragment? (names : ModelNames) {reference : Option String}
    (h : ¬ RefersToNothing reference) :
    ∃ fragment, names.optionalFragment? reference = some fragment := by
  rw [← Option.ne_none_iff_exists', ne_eq, optionalFragment?_eq_none_iff]
  exact h

/-! ## The names of models -/

/-- A name and the name of the schema that it leads to are both ends of one identifier. -/
def SharesEnd (entry : String × String) : Prop :=
  ∃ identifier : List Char, entry.1.toList <:+ identifier ∧ entry.2.toList <:+ identifier

/-- Every name by which a model is referred to ends as the name of its schema does. -/
def EndsAgree (names : ModelNames) : Prop :=
  ∀ entry ∈ names.entries, SharesEnd entry

/-- One more identifier keeps the ends in agreement. -/
theorem EndsAgree.add {names : ModelNames} (h : names.EndsAgree) (identifier : String) :
    (names.add identifier).EndsAgree := by
  have hshort := Text.lastSegment_suffix identifier
  have hself : SharesEnd (identifier, Text.lastSegment identifier) :=
    ⟨identifier.toList, List.suffix_refl _, hshort⟩
  have hwhole := forall_mem_putMember hself h
  -- the short name ends as it does itself, so what comes before it is left
  refine forall_mem_addMember ⟨_, List.suffix_refl _, List.suffix_refl _⟩ ?_
  split
  · next relative hstrip =>
    refine forall_mem_putMember ⟨identifier.toList, ?_, hshort⟩ hwhole
    rw [String.toList_ofList, Text.stripFront?_eq_some_iff.mp hstrip]
    exact List.suffix_append _ _
  · exact hwhole

/-- The names of any models have ends in agreement. -/
theorem endsAgree_ofIdentifiers (identifiers : List String) :
    (ofIdentifiers identifiers).EndsAgree := by
  rw [ofIdentifiers]
  refine List.foldlRecOn (motive := EndsAgree) identifiers add (List.forall_mem_nil _) ?_
  intro names h identifier _
  exact h.add identifier

/-! ## Resolving -/

/-- Where ends agree, a trimmed reference leads to a name that does not end with a blank. -/
theorem EndsAgree.last_of_getMember? {names : ModelNames} (h : names.EndsAgree)
    {reference name : String} (hne : reference ≠ "") (htrimmed : Text.IsTrimmed reference.toList)
    (hname : getMember? reference names.entries = some name) :
    ∀ c ∈ name.toList.getLast?, Text.isBlank c = false := by
  obtain ⟨identifier, hreference, hschema⟩ := h _ (mem_of_getMember? hname)
  intro c hc
  have hnename : name.toList ≠ [] := by
    intro hnil
    rw [hnil] at hc
    simp at hc
  have hnereference : reference.toList ≠ [] := by
    rw [ne_eq, String.toList_eq_nil_iff]
    exact hne
  rw [Text.getLast?_eq_of_suffix hschema hreference hnename hnereference] at hc
  exact htrimmed.last c hc

/-- Whatever a reference is resolved to is a pointer. -/
theorem EndsAgree.isPointer_of_resolve? {names : ModelNames} (h : names.EndsAgree)
    {reference pointer : String} (hpointer : names.resolve? reference = some pointer) :
    IsPointer pointer := by
  have htrimmed : Text.IsTrimmed (Text.trim reference).toList := by
    rw [Text.toList_trim]
    exact Text.isTrimmed_trimChars _
  rw [resolve?] at hpointer
  simp only [beq_iff_eq] at hpointer
  split at hpointer
  · simp at hpointer
  · next hne =>
    split at hpointer
    · next hfront =>
      rw [Option.some.injEq] at hpointer
      rw [← hpointer]
      exact ⟨htrimmed, Text.startsWith_iff.mp hfront⟩
    · -- a reference that is no pointer ends like the name that it is resolved to
      split at hpointer
      · next name hname =>
        rw [Option.some.injEq] at hpointer
        rw [← hpointer]
        exact isPointer_schemaPointer (h.last_of_getMember? hne htrimmed hname)
      · rw [Option.some.injEq] at hpointer
        rw [← hpointer]
        exact isPointer_schemaPointer htrimmed.last

/-- Whatever a reference is resolved to is resolved to itself. -/
theorem EndsAgree.resolve?_of_resolve? {names : ModelNames} (h : names.EndsAgree)
    {reference pointer : String} (hpointer : names.resolve? reference = some pointer) :
    names.resolve? pointer = some pointer :=
  names.resolve?_of_isPointer (h.isPointer_of_resolve? hpointer)

end ModelNames

end AnnotatedApi
