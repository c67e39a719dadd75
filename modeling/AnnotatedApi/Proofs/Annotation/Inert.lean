import AnnotatedApi.Model.Discovery

/-! # Attributes that say nothing

A malformed annotation and a malformed storage declaration say nothing: whoever reads a list of
attributes finds the same in it without them. What a malformed storage declaration still does is to
mark its struct as a model, and so it leaves no trace only where that mark is there already. -/

namespace AnnotatedApi

open Source

namespace Source.Attribute

/-- The attribute spells an annotation that cannot be constructed. -/
def IsMalformedAnnotation (a : Attribute) : Prop :=
  ∃ error, Annotation.ofAttribute? a = some (.error error)

/-- The attribute spells a storage declaration that cannot be constructed. -/
def IsMalformedStorage (a : Attribute) : Prop :=
  a.isNamed "model" = true ∧ ∃ error, StorageDecl.ofAttribute a = .error error

/-- The attribute is malformed, in one way or the other. -/
def IsMalformed (a : Attribute) : Prop :=
  a.IsMalformedAnnotation ∨ a.IsMalformedStorage

variable {a : Attribute}

/-- A word that is not of the vocabulary spells no annotation. -/
theorem vocabularyName?_of_isNamed {word : String} (h : a.isNamed word = true)
    (hword : word ∉ Annotation.vocabulary) : a.vocabularyName? = none := by
  rw [isNamed, Bool.and_eq_true, beq_iff_eq] at h
  rw [vocabularyName?, h.2]
  simpa [Option.filter, Annotation.vocabularyName?] using hword

theorem ofAttribute?_of_isNamed {word : String} (h : a.isNamed word = true)
    (hword : word ∉ Annotation.vocabulary) : Annotation.ofAttribute? a = none := by
  unfold Annotation.ofAttribute?
  rw [vocabularyName?_of_isNamed h hword]
  rfl

/-- A malformed annotation goes by no word outside the vocabulary. -/
theorem IsMalformedAnnotation.isNamed_eq_false (h : a.IsMalformedAnnotation) {word : String}
    (hword : word ∉ Annotation.vocabulary) : a.isNamed word = false := by
  obtain ⟨error, herror⟩ := h
  rw [Bool.eq_false_iff]
  intro hnamed
  rw [ofAttribute?_of_isNamed hnamed hword] at herror
  exact Option.some_ne_none _ herror.symm

/-- A malformed attribute gives no annotation. -/
theorem IsMalformed.annotations (h : a.IsMalformed) : Annotations.ofAttributes [a] = [] := by
  rcases h with ⟨error, herror⟩ | ⟨hnamed, -⟩
  · simp [Annotations.ofAttributes, herror]
  · have hnone : Annotation.ofAttribute? a = none := ofAttribute?_of_isNamed hnamed (by decide)
    simp [Annotations.ofAttributes, hnone]

/-- A malformed attribute holds no options of serialization. -/
theorem IsMalformed.isNamed_serde (h : a.IsMalformed) : a.isNamed "serde" = false := by
  rcases h with h | ⟨hnamed, -⟩
  · exact h.isNamed_eq_false (by decide)
  · rw [isNamed, Bool.and_eq_true, beq_iff_eq] at hnamed
    simp [isNamed, hnamed.2]

end Source.Attribute

/-! ## Lists with malformed attributes among them -/

/-- The second list is the first with malformed attributes put in. -/
inductive Padded : List Attribute → List Attribute → Prop
  | nil : Padded [] []
  /-- An attribute that both have. -/
  | keep (a : Attribute) {attrs attrs' : List Attribute} :
      Padded attrs attrs' → Padded (a :: attrs) (a :: attrs')
  /-- A malformed attribute that the first list does not have. -/
  | add {a : Attribute} {attrs attrs' : List Attribute} :
      a.IsMalformed → Padded attrs attrs' → Padded attrs (a :: attrs')

namespace Padded

variable {attrs attrs' others others' : List Attribute}

/-- A list is itself with nothing put in. -/
theorem refl : ∀ attrs, Padded attrs attrs
  | [] => nil
  | a :: rest => keep a (refl rest)

/-- Two lists one after the other. -/
theorem append (h : Padded attrs attrs') (hothers : Padded others others') :
    Padded (attrs ++ others) (attrs' ++ others') := by
  induction h with
  | nil => exact hothers
  | keep a _ ih => exact keep a ih
  | add hmalformed _ ih => exact add hmalformed ih

/-- One malformed attribute at some place. -/
theorem insert {a : Attribute} (h : a.IsMalformed) (front back : List Attribute) :
    Padded (front ++ back) (front ++ a :: back) :=
  (refl front).append (add h (refl back))

/-- The annotations are the same. -/
theorem annotations (h : Padded attrs attrs') :
    Annotations.ofAttributes attrs' = Annotations.ofAttributes attrs := by
  have hcons : ∀ a rest, Annotations.ofAttributes (a :: rest) =
      Annotations.ofAttributes [a] ++ Annotations.ofAttributes rest := fun a rest => by
    rw [← List.singleton_append, Annotations.ofAttributes, List.filterMap_append]
    rfl
  induction h with
  | nil => rfl
  | keep a _ ih => rw [hcons, ih, ← hcons]
  | add hmalformed _ ih => rw [hcons, hmalformed.annotations, List.nil_append, ih]

/-- The options of serialization are the same. -/
theorem fieldOptions (h : Padded attrs attrs') :
    FieldOptions.ofAttributes attrs' = FieldOptions.ofAttributes attrs := by
  have hfilter : attrs'.filter (Attribute.isNamed "serde") =
      attrs.filter (Attribute.isNamed "serde") := by
    induction h with
    | nil => rfl
    | keep a _ ih => rw [List.filter_cons, List.filter_cons, ih]
    | add hmalformed _ ih =>
        rw [List.filter_cons_of_neg (by simp [hmalformed.isNamed_serde]), ih]
  rw [FieldOptions.ofAttributes, hfilter, ← FieldOptions.ofAttributes]

end Padded

/-! ## Storage declarations -/

namespace StorageDecl

/-- What is declared when one more attribute is read, if that is a storage declaration at all. -/
def extend (decl : StorageDecl) (a : Attribute) : StorageDecl :=
  if a.isNamed "model" then
    match ofAttribute a with
    | .ok more => decl.merge more
    | .error _ => decl
  else decl

/-- Attributes are read one after the other. -/
theorem ofAttributes_eq_foldl (attrs : List Attribute) :
    ofAttributes attrs = attrs.foldl extend {} := by
  rw [ofAttributes, List.foldl_filter]
  rfl

/-- A malformed attribute declares nothing. -/
theorem extend_of_isMalformed {a : Attribute} (h : a.IsMalformed) (decl : StorageDecl) :
    decl.extend a = decl := by
  rcases h with h | ⟨hnamed, error, herror⟩
  · simp [extend, h.isNamed_eq_false (by decide : "model" ∉ Annotation.vocabulary)]
  · simp [extend, hnamed, herror]

end StorageDecl

/-- The storage declarations are the same. -/
theorem Padded.storage {attrs attrs' : List Attribute} (h : Padded attrs attrs') :
    StorageDecl.ofAttributes attrs' = StorageDecl.ofAttributes attrs := by
  -- whatever was declared before the two lists
  have hfold : ∀ decl, attrs'.foldl StorageDecl.extend decl =
      attrs.foldl StorageDecl.extend decl := by
    induction h with
    | nil => exact fun _ => rfl
    | keep a _ ih => exact fun decl => ih (decl.extend a)
    | add hmalformed _ ih =>
        intro decl
        rw [List.foldl_cons, StorageDecl.extend_of_isMalformed hmalformed, ih]
  rw [StorageDecl.ofAttributes_eq_foldl, StorageDecl.ofAttributes_eq_foldl, hfold]

/-! ## Marks of models -/

/-- Whether one of the attributes marks a struct as a model. -/
def isMarked (attrs : List Attribute) : Bool :=
  attrs.any fun a => a.isNamed "model" || a.derives "Model"

/-- Attributes put in take no mark away. -/
theorem Padded.isMarked {attrs attrs' : List Attribute} (h : Padded attrs attrs')
    (hmarked : isMarked attrs = true) : AnnotatedApi.isMarked attrs' = true := by
  rw [AnnotatedApi.isMarked, List.any_eq_true] at hmarked ⊢
  obtain ⟨a, hmem, ha⟩ := hmarked
  refine ⟨a, ?_, ha⟩
  clear ha
  induction h with
  | nil => exact hmem
  | keep b _ ih =>
      rcases List.mem_cons.mp hmem with rfl | hrest
      · exact List.mem_cons_self
      · exact List.mem_cons_of_mem _ (ih hrest)
  | add _ _ ih => exact List.mem_cons_of_mem _ (ih hmem)

/-- A malformed annotation is no mark. -/
theorem isMarked_singleton_of_isMalformedAnnotation {a : Attribute}
    (h : a.IsMalformedAnnotation) : isMarked [a] = false := by
  have hmodel := h.isNamed_eq_false (by decide : "model" ∉ Annotation.vocabulary)
  have hderive := h.isNamed_eq_false (by decide : "derive" ∉ Annotation.vocabulary)
  simp [isMarked, Attribute.derives, hmodel, hderive]

/-- Marks are looked for in one list after the other. -/
theorem isMarked_append (attrs others : List Attribute) :
    isMarked (attrs ++ others) = (isMarked attrs || isMarked others) := by
  rw [isMarked, List.any_append]
  rfl

/-- Two lists of attributes say the same to every reader; only where it is allowed may the second
have a mark that the first does not have. -/
structure AttrsAlike (mayMark : Prop) (attrs attrs' : List Attribute) : Prop where
  padded : Padded attrs attrs'
  marked : isMarked attrs' = isMarked attrs ∨ mayMark

namespace AttrsAlike

variable {mayMark : Prop} {attrs attrs' others others' : List Attribute}

/-- A list says the same as itself. -/
theorem refl (attrs : List Attribute) : AttrsAlike mayMark attrs attrs :=
  ⟨.refl attrs, .inl rfl⟩

/-- What is alike stays alike where more is allowed. -/
theorem mono (h : AttrsAlike False attrs attrs') : AttrsAlike mayMark attrs attrs' :=
  ⟨h.padded, .inl (h.marked.resolve_right id)⟩

/-- Two lists one after the other. -/
theorem append (h : AttrsAlike mayMark attrs attrs') (hothers : AttrsAlike mayMark others others') :
    AttrsAlike mayMark (attrs ++ others) (attrs' ++ others') := by
  refine ⟨h.padded.append hothers.padded, ?_⟩
  rcases h.marked with hmarked | hmay
  · rcases hothers.marked with hmarked' | hmay
    · exact .inl (by rw [isMarked_append, isMarked_append, hmarked, hmarked'])
    · exact .inr hmay
  · exact .inr hmay

/-- One malformed annotation more says nothing. -/
theorem insert_malformed {a : Attribute} (h : a.IsMalformedAnnotation)
    (front back : List Attribute) : AttrsAlike mayMark (front ++ back) (front ++ a :: back) := by
  refine ⟨Padded.insert (.inl h) front back, .inl ?_⟩
  rw [← List.singleton_append, isMarked_append, isMarked_append, isMarked_append,
    isMarked_singleton_of_isMalformedAnnotation h, Bool.false_or]

/-- One malformed storage declaration more says nothing where there is a mark or may be one. -/
theorem insert_storage {a : Attribute} (h : a.IsMalformedStorage) {front back : List Attribute}
    (hmay : isMarked (front ++ back) = true ∨ mayMark) :
    AttrsAlike mayMark (front ++ back) (front ++ a :: back) := by
  have hpadded := Padded.insert (.inr h) front back
  refine ⟨hpadded, ?_⟩
  rcases hmay with hmarked | hmay
  · exact .inl (by rw [hmarked, hpadded.isMarked hmarked])
  · exact .inr hmay

end AttrsAlike

end AnnotatedApi
