import AnnotatedApi.Schema.Construction
import AnnotatedApi.Proofs.Schema.Reference

/-! # The pointers of schemas

A fragment can hold pointers at any depth, in its elements and in its properties. Whatever a
declaration, a field or a model says, the fragment that is made of it holds no pointer that the
resolver did not give. One equation opens a schema, `Schema.resolved_iff`; after it, every step of
the construction is about the elements and the properties alone. -/

namespace AnnotatedApi

/-! ## Collecting pointers -/

mutual

/-- The pointers of a fragment, at any depth. -/
def Fragment.pointers : Fragment → List String
  | .ref pointer => [pointer]
  | .inline schema => schema.pointers

/-- The pointers of a schema: those of its elements and of its properties. -/
def Schema.pointers (schema : Schema) : List String :=
  match schema with
  | { items, properties, .. } =>
    (match items with
      | some items => items.pointers
      | none => []) ++ pointersOfFragments properties

/-- The pointers of named fragments. -/
def pointersOfFragments : List (String × Fragment) → List String
  | [] => []
  | (_, fragment) :: rest => fragment.pointers ++ pointersOfFragments rest

end

/-- A pointer that the resolver gives for some reference. -/
def ModelNames.Gives (names : ModelNames) (pointer : String) : Prop :=
  ∃ reference, names.resolve? reference = some pointer

/-- Pointers all of which the resolver gives. -/
def ModelNames.GivesAll (names : ModelNames) (pointers : List String) : Prop :=
  ∀ pointer ∈ pointers, names.Gives pointer

/-- A fragment all of whose pointers were given by the resolver. -/
def Fragment.Resolved (names : ModelNames) (fragment : Fragment) : Prop :=
  names.GivesAll fragment.pointers

/-- A schema all of whose pointers were given by the resolver. -/
def Schema.Resolved (names : ModelNames) (schema : Schema) : Prop :=
  names.GivesAll schema.pointers

/-- An optional fragment that is resolved if it is there. -/
def ResolvedOption (names : ModelNames) (fragment? : Option Fragment) : Prop :=
  ∀ fragment ∈ fragment?, fragment.Resolved names

/-- Named fragments all of which are resolved. -/
def ResolvedFragments (names : ModelNames) (fragments : List (String × Fragment)) : Prop :=
  ∀ entry ∈ fragments, entry.2.Resolved names

variable {names : ModelNames}

/-! ## Lists of pointers -/

namespace ModelNames

@[simp] theorem givesAll_nil : names.GivesAll [] :=
  List.forall_mem_nil _

@[simp] theorem givesAll_append_iff {pointers others : List String} :
    names.GivesAll (pointers ++ others) ↔ names.GivesAll pointers ∧ names.GivesAll others :=
  List.forall_mem_append

/-- The pointers of all parts are given when those of each part are. -/
theorem givesAll_flatMap_iff {parts : List α} {pointers : α → List String} :
    names.GivesAll (parts.flatMap pointers) ↔ ∀ part ∈ parts, names.GivesAll (pointers part) :=
  List.forall_mem_flatMap

end ModelNames

/-! ## Opening fragments and schemas -/

/-- The pointers of named fragments are given when the fragments are resolved. -/
theorem givesAll_pointersOfFragments_iff {fragments : List (String × Fragment)} :
    names.GivesAll (pointersOfFragments fragments) ↔ ResolvedFragments names fragments := by
  induction fragments with
  | nil => simp [pointersOfFragments, ResolvedFragments]
  | cons entry rest ih =>
      obtain ⟨name, fragment⟩ := entry
      rw [pointersOfFragments, ModelNames.givesAll_append_iff, ih, ResolvedFragments,
        ResolvedFragments, List.forall_mem_cons]
      rfl

/-- The pointers of an optional fragment are given when it is resolved if it is there. -/
theorem givesAll_toList_iff {fragment? : Option Fragment} :
    names.GivesAll (fragment?.toList.flatMap Fragment.pointers) ↔
      ResolvedOption names fragment? := by
  rw [ModelNames.givesAll_flatMap_iff, ResolvedOption]
  simp only [Option.mem_toList]
  rfl

theorem Fragment.resolved_ref {pointer : String} (h : names.Gives pointer) :
    (Fragment.ref pointer).Resolved names := by
  intro other hother
  rw [Fragment.pointers, List.mem_singleton] at hother
  rw [hother]
  exact h

theorem Fragment.resolved_inline_iff {schema : Schema} :
    (Fragment.inline schema).Resolved names ↔ schema.Resolved names := by
  rw [Fragment.Resolved, Fragment.pointers, Schema.Resolved]

/-- A schema is resolved when its elements and its properties are. -/
theorem Schema.resolved_iff {schema : Schema} :
    schema.Resolved names ↔
      ResolvedOption names schema.items ∧ ResolvedFragments names schema.properties := by
  have hpointers : schema.pointers =
      (match schema.items with
        | some items => items.pointers
        | none => []) ++ pointersOfFragments schema.properties := by
    cases schema
    rw [Schema.pointers.eq_def]
  rw [Schema.Resolved, hpointers, ModelNames.givesAll_append_iff,
    givesAll_pointersOfFragments_iff]
  cases schema.items <;> simp [ResolvedOption, Fragment.Resolved]

theorem resolvedOption_none : ResolvedOption names none := by
  intro fragment hfragment
  exact absurd hfragment (Option.not_mem_none _)

theorem resolvedOption_some {fragment : Fragment} (h : fragment.Resolved names) :
    ResolvedOption names (some fragment) := by
  intro other hother
  rw [Option.mem_some_iff] at hother
  rw [← hother]
  exact h

/-- What is made of an optional value is resolved if all that can be made of values is. -/
theorem resolvedOption_map {f : α → Fragment} (h : ∀ a, (f a).Resolved names) (value? : Option α) :
    ResolvedOption names (value?.map f) := by
  intro fragment hfragment
  obtain ⟨a, -, rfl⟩ := Option.map_eq_some_iff.mp hfragment
  exact h a

/-- The first of two optional elements is resolved if both are. -/
theorem ResolvedOption.orElse {first second : Option Fragment} (hfirst : ResolvedOption names first)
    (hsecond : ResolvedOption names second) : ResolvedOption names (first <|> second) := by
  cases first with
  | none => exact hsecond
  | some fragment => exact hfirst

theorem resolvedFragments_nil : ResolvedFragments names [] :=
  List.forall_mem_nil _

/-- A schema without elements and properties has no pointers. -/
theorem Schema.resolved_of_flat {schema : Schema} (hitems : schema.items = none)
    (hproperties : schema.properties = []) : schema.Resolved names := by
  rw [Schema.resolved_iff, hitems, hproperties]
  exact ⟨resolvedOption_none, resolvedFragments_nil⟩

/-- A schema with the elements and the properties of a resolved one is resolved. -/
theorem Schema.Resolved.of_eq {schema other : Schema} (h : schema.Resolved names)
    (hitems : other.items = schema.items) (hproperties : other.properties = schema.properties) :
    other.Resolved names := by
  rw [Schema.resolved_iff] at h ⊢
  rw [hitems, hproperties]
  exact h

/-- A schema that only has a type is resolved. -/
theorem Schema.resolved_typed (type : String) : (Schema.typed type).Resolved names :=
  Schema.resolved_of_flat rfl rfl

/-- An array of resolved elements is resolved. -/
theorem Schema.resolved_arrayOf {items : Fragment} (h : items.Resolved names) :
    (Schema.arrayOf items).Resolved names :=
  Schema.resolved_iff.mpr ⟨resolvedOption_some h, resolvedFragments_nil⟩

/-! ## Resolving references -/

/-- The fragment of a reference is resolved. -/
theorem ModelNames.resolved_of_fragment? {reference : String} {fragment : Fragment}
    (h : names.fragment? reference = some fragment) : fragment.Resolved names := by
  rw [ModelNames.fragment?, Option.map_eq_some_iff] at h
  obtain ⟨pointer, hpointer, rfl⟩ := h
  exact Fragment.resolved_ref ⟨reference, hpointer⟩

/-- The fragment of an optional reference is resolved. -/
theorem ModelNames.resolved_of_optionalFragment? {reference : Option String} {fragment : Fragment}
    (h : names.optionalFragment? reference = some fragment) : fragment.Resolved names := by
  rw [ModelNames.optionalFragment?, Option.bind_eq_some_iff] at h
  obtain ⟨text, -, htext⟩ := h
  exact ModelNames.resolved_of_fragment? htext

mutual

/-- Resolving all references of a fragment leaves it resolved. -/
theorem ModelNames.resolved_resolveFragment :
    ∀ fragment : Fragment, (names.resolveFragment fragment).Resolved names
  | .ref pointer => by
      rw [ModelNames.resolveFragment]
      split
      · next resolved hresolved => exact Fragment.resolved_ref ⟨pointer, hresolved⟩
      · exact Fragment.resolved_inline_iff.mpr (Schema.resolved_typed _)
  | .inline schema => by
      rw [ModelNames.resolveFragment, Fragment.resolved_inline_iff]
      exact ModelNames.resolved_resolveSchema schema

/-- Resolving all references of a schema leaves it resolved. -/
theorem ModelNames.resolved_resolveSchema (schema : Schema) :
    (names.resolveSchema schema).Resolved names := by
  match schema with
  | { items, properties, .. } =>
    rw [ModelNames.resolveSchema.eq_def, Schema.resolved_iff]
    refine ⟨?_, ModelNames.resolved_resolveFragments properties⟩
    match items with
    | none => exact resolvedOption_none
    | some items => exact resolvedOption_some (ModelNames.resolved_resolveFragment items)

/-- Resolving all references of named fragments leaves them resolved. -/
theorem ModelNames.resolved_resolveFragments :
    ∀ fragments : List (String × Fragment),
      ResolvedFragments names (names.resolveFragments fragments)
  | [] => by
      rw [ModelNames.resolveFragments]
      exact resolvedFragments_nil
  | (_, fragment) :: rest => by
      rw [ModelNames.resolveFragments, ResolvedFragments, List.forall_mem_cons]
      exact ⟨ModelNames.resolved_resolveFragment fragment,
        ModelNames.resolved_resolveFragments rest⟩

end

end AnnotatedApi
