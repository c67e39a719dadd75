import AnnotatedApi.Proofs.Schema.ModelNames
import AnnotatedApi.Proofs.Text.Segments

/-! # What references are resolved to

A reference says by itself what it is resolved to: nothing where it is blank, itself where it is a
pointer, and otherwise the pointer to its last segment or to the whole of it, according to whether
it is a spelling of a model. So the order of the models does not matter, nor whether one of them
comes twice. This needs no assumption on the identifiers of the models, which can be any texts, but
it has one exception. Where what follows `crate::` in an identifier has a loose colon in front, the
two have different last segments: the reference `:x` is a spelling of `crate:::x`, whose last
segment is `x`. -/

namespace AnnotatedApi.ModelNames

/-! ## Spellings of any texts -/

/-- A text has `crate::` in front when its characters do. -/
theorem eq_crate_append_iff {text : String} {rest : List Char} :
    text = "crate::" ++ String.ofList rest ↔ text.toList = "crate::".toList ++ rest := by
  rw [← String.toList_inj, String.toList_append]
  exact Eq.congr_right (congrArg ("crate::".toList ++ ·) String.toList_ofList)

/-- The spellings of an identifier are itself, what follows `crate::` in it, and its last
segment. -/
theorem mem_spellings_iff {identifier spelling : String} :
    spelling ∈ spellings identifier ↔
      spelling = identifier ∨ identifier = "crate::" ++ spelling ∨
        spelling = Text.lastSegment identifier := by
  simp only [spellings, List.mem_append, List.mem_singleton, Option.mem_toList,
    Option.map_eq_some_iff, Text.stripFront?_eq_some_iff]
  have hrest : (∃ rest, identifier.toList = "crate::".toList ++ rest ∧
      String.ofList rest = spelling) ↔ identifier = "crate::" ++ spelling := by
    constructor
    · rintro ⟨rest, hidentifier, rfl⟩
      exact eq_crate_append_iff.mpr hidentifier
    · rintro rfl
      exact ⟨spelling.toList, String.toList_append, String.ofList_toList⟩
  rw [hrest, or_assoc]

/-- The reference is what follows `crate::` in an identifier, where its loose colon gets lost. -/
structure IsTorn (identifiers : List String) (reference : String) : Prop where
  /-- The reference has a loose colon in front. -/
  loose : Text.HasLooseColon reference
  /-- With `crate::` in front it is an identifier. -/
  mem : "crate::" ++ reference ∈ identifiers

/-- The characters of what has `crate::` in front. -/
theorem toList_crate_append (text : String) :
    ("crate::" ++ text).toList = "crate".toList ++ ':' :: ':' :: text.toList := by
  rw [String.toList_append]
  rfl

/-- A spelling has the last segment of its identifier, unless a colon gets lost. -/
theorem lastSegment_of_mem_spellings {identifier spelling : String}
    (h : spelling ∈ spellings identifier)
    (hwhole : identifier = "crate::" ++ spelling → ¬ Text.HasLooseColon spelling) :
    Text.lastSegment identifier = Text.lastSegment spelling := by
  rcases mem_spellings_iff.mp h with rfl | rfl | rfl
  · rfl
  · exact Text.lastSegment_append (toList_crate_append spelling) (hwhole rfl)
  · exact (Text.lastSegment_lastSegment identifier).symm

/-- A text with a loose colon in front is a spelling of itself and of what has `crate::` before
it. -/
theorem eq_of_mem_spellings_of_loose {identifier spelling : String}
    (h : spelling ∈ spellings identifier) (hloose : Text.HasLooseColon spelling) :
    identifier = spelling ∨ identifier = "crate::" ++ spelling := by
  rcases mem_spellings_iff.mp h with rfl | rfl | hsegment
  · exact .inl rfl
  · exact .inr rfl
  · -- a last segment with a colon in front would have a pair of colons before it
    by_cases hpair : Text.HasPair identifier.toList
    · obtain ⟨front, back, hidentifier, hback⟩ := Text.exists_last_pair hpair
      have hhead := hloose.head
      rw [hsegment, Text.toList_lastSegment_of_pair hidentifier hback] at hhead
      exact absurd (Text.hasPair_cons_iff.mpr (.inl ⟨rfl, hhead⟩)) hback
    · rw [Text.lastSegment_of_not_hasPair hpair] at hsegment
      exact .inl hsegment.symm

/-! ## Names of any texts -/

/-- Whatever the identifiers are, a name leads to the last segment of one that it spells. -/
theorem exists_spelled_of_mem_entries {identifiers : List String} :
    ∀ entry ∈ (ofIdentifiers identifiers).entries, ∃ identifier ∈ identifiers,
      entry.1 ∈ spellings identifier ∧ entry.2 = Text.lastSegment identifier := by
  induction identifiers using List.reverseRecOn with
  | nil => exact List.forall_mem_nil _
  | append_singleton identifiers last ih =>
      rw [ofIdentifiers, List.foldl_append, List.foldl_cons, List.foldl_nil]
      rw [ofIdentifiers] at ih
      -- what the last identifier sets leads to its own last segment
      have hlast : ∀ spelling ∈ spellings last, ∃ identifier ∈ identifiers ++ [last],
          spelling ∈ spellings identifier ∧
            Text.lastSegment last = Text.lastSegment identifier := fun spelling hspelling =>
        ⟨last, List.mem_append_right _ List.mem_cons_self, hspelling, rfl⟩
      have hbefore : ∀ entry ∈ (identifiers.foldl add {}).entries,
          ∃ identifier ∈ identifiers ++ [last],
            entry.1 ∈ spellings identifier ∧ entry.2 = Text.lastSegment identifier := by
        intro entry hentry
        obtain ⟨identifier, hmem, hspelled⟩ := ih entry hentry
        exact ⟨identifier, List.mem_append_left _ hmem, hspelled⟩
      have hwhole := forall_mem_putMember
        (hlast last (mem_spellings_iff.mpr (.inl rfl))) hbefore
      refine forall_mem_addMember (hlast _ (mem_spellings_iff.mpr (.inr (.inr rfl)))) ?_
      split
      · next relative hstrip =>
        have hrelative := eq_crate_append_iff.mpr (Text.stripFront?_eq_some_iff.mp hstrip)
        exact forall_mem_putMember (hlast _ (mem_spellings_iff.mpr (.inr (.inl hrelative)))) hwhole
      · exact hwhole

/-! ## Normal forms -/

/-- The reference is neither blank nor a pointer, so it is looked up. -/
structure IsLookedUp (reference : String) : Prop where
  /-- There is something besides blanks. -/
  ne_empty : Text.trim reference ≠ ""
  /-- It does not point into the document. -/
  front : Text.startsWith (Text.trim reference) "#/" = false

/-- A reference that is looked up leads to the name that is found, or else to itself. -/
theorem resolve?_of_isLookedUp {names : ModelNames} {reference : String}
    (h : IsLookedUp reference) :
    names.resolve? reference =
      some (schemaPointer ((getMember? (Text.trim reference) names.entries).getD
        (Text.trim reference))) := by
  rw [resolve?]
  simp only [beq_iff_eq, if_neg h.ne_empty, h.front, Bool.false_eq_true, if_false]
  cases getMember? (Text.trim reference) names.entries <;> rfl

/-- What a reference is resolved to, given the identifiers of the models. -/
structure HasNormalForm (identifiers : List String) (reference : String) : Prop where
  /-- Nothing, exactly where the reference is blank. -/
  blank : (ofIdentifiers identifiers).resolve? reference = none ↔ Text.trim reference = ""
  /-- A pointer is kept, without the blanks around it. -/
  pointer : Text.startsWith (Text.trim reference) "#/" = true →
    (ofIdentifiers identifiers).resolve? reference = some (Text.trim reference)
  /-- A spelling of a model leads to its last segment, unless its colon gets lost. -/
  spelled : IsLookedUp reference → ¬ IsTorn identifiers (Text.trim reference) →
    (∃ identifier ∈ identifiers, Text.trim reference ∈ spellings identifier) →
    (ofIdentifiers identifiers).resolve? reference =
      some (schemaPointer (Text.lastSegment (Text.trim reference)))
  /-- Where its colon gets lost, a reference leads to what is left, or to itself if it is an
  identifier. -/
  torn : IsTorn identifiers (Text.trim reference) →
    (ofIdentifiers identifiers).resolve? reference =
        some (schemaPointer (String.ofList (Text.trim reference).toList.tail)) ∨
      Text.trim reference ∈ identifiers ∧
        (ofIdentifiers identifiers).resolve? reference = some (schemaPointer (Text.trim reference))
  /-- What is no spelling of a model leads to itself. -/
  other : IsLookedUp reference →
    (¬ ∃ identifier ∈ identifiers, Text.trim reference ∈ spellings identifier) →
    (ofIdentifiers identifiers).resolve? reference =
      some (schemaPointer (Text.trim reference))
  /-- Whatever the reference is resolved to is resolved to itself. -/
  again : ∀ pointer ∈ (ofIdentifiers identifiers).resolve? reference,
    (ofIdentifiers identifiers).resolve? pointer = some pointer

/-- A text with a colon in front is looked up. -/
theorem isLookedUp_of_loose {reference : String} (h : Text.HasLooseColon (Text.trim reference)) :
    IsLookedUp reference where
  ne_empty hempty := by
    have hhead := h.head
    rw [hempty] at hhead
    exact absurd hhead (by decide)
  front := by
    rw [Bool.eq_false_iff, ne_eq, Text.startsWith_iff]
    rintro ⟨rest, hrest⟩
    have hhead := h.head
    rw [← hrest] at hhead
    exact absurd (Option.some.inj hhead) (by decide)

/-- A spelling that is looked up leads to the last segment of an identifier that it spells. -/
theorem exists_resolve?_of_spelled {identifiers : List String} {reference : String}
    (h : IsLookedUp reference)
    (hspelled : ∃ identifier ∈ identifiers, Text.trim reference ∈ spellings identifier) :
    ∃ identifier ∈ identifiers, Text.trim reference ∈ spellings identifier ∧
      (ofIdentifiers identifiers).resolve? reference =
        some (schemaPointer (Text.lastSegment identifier)) := by
  rw [← mem_memberNames_ofIdentifiers_iff] at hspelled
  obtain ⟨name, hname⟩ : ∃ name,
      getMember? (Text.trim reference) (ofIdentifiers identifiers).entries = some name := by
    rw [← Option.ne_none_iff_exists', ne_eq, getMember?_eq_none_iff, not_not]
    exact hspelled
  obtain ⟨identifier, hmem, hspelling, hlast⟩ :=
    exists_spelled_of_mem_entries _ (mem_of_getMember? hname)
  refine ⟨identifier, hmem, hspelling, ?_⟩
  rw [resolve?_of_isLookedUp h, hname, Option.getD_some]
  exact congrArg (fun name => some (schemaPointer name)) hlast

/-- Every reference has its normal form, whatever the identifiers are. -/
theorem hasNormalForm (identifiers : List String) (reference : String) :
    HasNormalForm identifiers reference where
  blank := by
    rw [resolve?_eq_none_iff, Text.trim_eq_empty_iff]
  pointer hfront := by
    have hne : Text.trim reference ≠ "" := by
      intro hempty
      rw [hempty] at hfront
      exact absurd hfront (by decide)
    rw [resolve?]
    simp only [beq_iff_eq, if_neg hne, if_pos hfront]
  spelled hlooked htorn hspelled := by
    obtain ⟨identifier, hmem, hspelling, hresolve⟩ := exists_resolve?_of_spelled hlooked hspelled
    rw [hresolve, lastSegment_of_mem_spellings hspelling]
    rintro rfl hloose
    exact htorn ⟨hloose, hmem⟩
  torn htorn := by
    obtain ⟨identifier, hmem, hspelling, hresolve⟩ :=
      exists_resolve?_of_spelled (isLookedUp_of_loose htorn.loose)
        ⟨_, htorn.mem, mem_spellings_iff.mpr (.inr (.inl rfl))⟩
    -- it is looked up as the identifier itself, or as the short name behind the crate
    obtain rfl | rfl := eq_of_mem_spellings_of_loose hspelling htorn.loose
    · rw [Text.lastSegment_of_not_hasPair htorn.loose.unpaired] at hresolve
      exact .inr ⟨hmem, hresolve⟩
    · rw [hresolve, ← htorn.loose.toList_lastSegment_append (toList_crate_append _),
        String.ofList_toList]
      exact .inl rfl
  other hlooked hspelled := by
    rw [← mem_memberNames_ofIdentifiers_iff, ← getMember?_eq_none_iff] at hspelled
    rw [resolve?_of_isLookedUp hlooked, hspelled, Option.getD_none]
  again pointer hpointer := (endsAgree_ofIdentifiers identifiers).resolve?_of_resolve? hpointer

/-- Every reference has its normal form, and two lists of the same identifiers, in any order and
with any repetitions, resolve it alike. The one exception is a reference with a loose colon in front
that is an identifier both by itself and with `crate::` in front. -/
theorem hasNormalForm_and_resolve?_eq {identifiers others : List String}
    (h : ∀ identifier, identifier ∈ identifiers ↔ identifier ∈ others) (reference : String) :
    HasNormalForm identifiers reference ∧
      (¬ (IsTorn identifiers (Text.trim reference) ∧ Text.trim reference ∈ identifiers) →
        (ofIdentifiers identifiers).resolve? reference =
          (ofIdentifiers others).resolve? reference) := by
  have hform := hasNormalForm identifiers reference
  have hother := hasNormalForm others reference
  refine ⟨hform, fun hexception => ?_⟩
  have htorn : IsTorn identifiers (Text.trim reference) ↔ IsTorn others (Text.trim reference) :=
    ⟨fun htorn => ⟨htorn.loose, (h _).mp htorn.mem⟩,
      fun htorn => ⟨htorn.loose, (h _).mpr htorn.mem⟩⟩
  have hspelled : (∃ identifier ∈ identifiers, Text.trim reference ∈ spellings identifier) ↔
      ∃ identifier ∈ others, Text.trim reference ∈ spellings identifier := by
    simp only [h]
  by_cases hempty : Text.trim reference = ""
  · rw [hform.blank.mpr hempty, hother.blank.mpr hempty]
  by_cases hfront : Text.startsWith (Text.trim reference) "#/" = true
  · rw [hform.pointer hfront, hother.pointer hfront]
  have hlooked : IsLookedUp reference := ⟨hempty, Bool.eq_false_iff.mpr hfront⟩
  by_cases hnamed : ∃ identifier ∈ identifiers, Text.trim reference ∈ spellings identifier
  · by_cases hcut : IsTorn identifiers (Text.trim reference)
    · -- the order of the identifiers matters only if the reference is one itself, the exception
      have hmem : Text.trim reference ∉ identifiers := fun hmem => hexception ⟨hcut, hmem⟩
      rw [(hform.torn hcut).resolve_right fun hself => hmem hself.1,
        (hother.torn (htorn.mp hcut)).resolve_right fun hself => hmem ((h _).mpr hself.1)]
    · rw [hform.spelled hlooked hcut hnamed,
        hother.spelled hlooked (htorn.not.mp hcut) (hspelled.mp hnamed)]
  · rw [hform.other hlooked hnamed, hother.other hlooked (hspelled.not.mp hnamed)]

/-- Two models of one name, whatever comes first and however often, and a model whose identifier is
no path. -/
theorem hasNormalForm_and_resolve?_eq_taskModels :
    (∀ identifier, identifier ∈ ["crate::Task", "crate::old::Task", "crate:::x"] ↔
      identifier ∈ ["crate:::x", "crate::old::Task", "crate::Task", "crate:::x"]) ∧
      (ofIdentifiers ["crate::Task", "crate::old::Task", "crate:::x"]).resolve? " old::Task" =
        some "#/components/schemas/Task" ∧
      (ofIdentifiers ["crate::Task", "crate::old::Task", "crate:::x"]).resolve? ":x" =
        (ofIdentifiers ["crate:::x", "crate::old::Task", "crate::Task", "crate:::x"]).resolve?
          ":x" := by
  have hsame : ∀ identifier, identifier ∈ ["crate::Task", "crate::old::Task", "crate:::x"] ↔
      identifier ∈ ["crate:::x", "crate::old::Task", "crate::Task", "crate:::x"] := by
    intro identifier
    simp only [List.mem_cons, List.not_mem_nil, or_false]
    tauto
  refine ⟨hsame, ?_, (hasNormalForm_and_resolve?_eq hsame ":x").2 ?_⟩
  · have hlooked : IsLookedUp " old::Task" := ⟨by decide, by decide⟩
    have hform := (hasNormalForm_and_resolve?_eq hsame " old::Task").1
    have hwhole : ¬ IsTorn ["crate::Task", "crate::old::Task", "crate:::x"]
        (Text.trim " old::Task") := fun htorn => absurd htorn.loose.head (by decide)
    have hspelled : ∃ identifier ∈ ["crate::Task", "crate::old::Task", "crate:::x"],
        Text.trim " old::Task" ∈ spellings identifier := ⟨"crate::old::Task", by decide, by decide⟩
    exact (hform.spelled hlooked hwhole hspelled).trans (by decide)
  · rintro ⟨-, hmem⟩
    exact absurd hmem (by decide)

/-- With an identifier that is no path, the reference to what follows `crate::` does not lead to its
own last segment; and where that is an identifier too, the order of the two matters. -/
theorem resolve?_tornIdentifiers :
    (ofIdentifiers ["crate:::x"]).resolve? ":x" ≠
        some (schemaPointer (Text.lastSegment ":x")) ∧
      (ofIdentifiers ["crate:::x", ":x"]).resolve? ":x" ≠
        (ofIdentifiers [":x", "crate:::x"]).resolve? ":x" := by
  decide

end AnnotatedApi.ModelNames
