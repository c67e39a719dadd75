import AnnotatedApi.Proofs.Schema.Lawful
import AnnotatedApi.Proofs.Schema.Pointers

/-! # Resolving the references of a fragment

A fragment that a configuration brings along can hold references in any notation, in its elements
and properties at any depth. Resolving them changes these references and nothing else. To say so
without following the recursion, a node is told by the places that lead to it: resolving goes along
with stepping to a place, so every node of the resolved fragment is the node at the same places,
resolved. -/

namespace AnnotatedApi

variable {names : ModelNames}

/-! ## Places -/

/-- A place within a schema: its elements, or one of its properties in their order. -/
inductive SchemaPlace where
  | items
  | property (index : Nat)

namespace Fragment

/-- The part of a fragment at a place. -/
def part? : Fragment → SchemaPlace → Option Fragment
  | .ref _, _ => none
  | .inline schema, .items => schema.items
  | .inline schema, .property index => schema.properties[index]?.map Prod.snd

/-- The node of a fragment that places lead to. -/
def nodeAt? (fragment : Fragment) : List SchemaPlace → Option Fragment
  | [] => some fragment
  | place :: path => (fragment.part? place).bind fun part => part.nodeAt? path

end Fragment

/-- The keywords of a schema without its elements and properties. -/
def Schema.keywords (schema : Schema) : Schema :=
  { schema with items := none, properties := [] }

namespace ModelNames

/-- The second fragment has the references of the first resolved, and is the same besides. -/
structure ResolvesOnly (names : ModelNames) (before after : Fragment) : Prop where
  /-- The same places lead to nodes. -/
  places : ∀ path, (after.nodeAt? path).isSome = (before.nodeAt? path).isSome
  /-- A reference becomes the pointer that it is resolved to. -/
  reference : ∀ path reference, before.nodeAt? path = some (.ref reference) →
    Text.isBlankText reference = false → ∃ pointer, names.resolve? reference = some pointer ∧
      after.nodeAt? path = some (.ref pointer)
  /-- A blank reference becomes an object. -/
  blank : ∀ path reference, before.nodeAt? path = some (.ref reference) →
    Text.isBlankText reference = true → after.nodeAt? path = some (.inline (.typed "object"))
  /-- A schema in place stays one, with all its keywords and with parts of the same names in the
  same order. -/
  schema : ∀ path schema, before.nodeAt? path = some (.inline schema) →
    ∃ resolved, after.nodeAt? path = some (.inline resolved) ∧
      resolved.keywords = schema.keywords ∧ resolved.items.isSome = schema.items.isSome ∧
      memberNames resolved.properties = memberNames schema.properties

/-! ## Nodes of resolved fragments -/

/-- A part of a resolved fragment is a resolved part. -/
theorem part?_resolveFragment (names : ModelNames) (fragment : Fragment) (place : SchemaPlace) :
    (names.resolveFragment fragment).part? place =
      (fragment.part? place).map names.resolveFragment := by
  cases fragment with
  | ref reference =>
      -- neither a pointer nor the object for a blank reference has parts
      rw [resolveFragment]
      cases names.resolve? reference <;> cases place <;> rfl
  | inline schema =>
      rw [resolveFragment, resolveSchema_eq]
      cases place with
      | items => rfl
      | property index =>
          show ((mapMembers names.resolveFragment schema.properties)[index]?).map Prod.snd =
            (schema.properties[index]?.map Prod.snd).map names.resolveFragment
          rw [mapMembers, List.getElem?_map, Option.map_map, Option.map_map]
          rfl

/-- A node of a resolved fragment is a resolved node. -/
theorem nodeAt?_resolveFragment (names : ModelNames) (fragment : Fragment)
    (path : List SchemaPlace) :
    (names.resolveFragment fragment).nodeAt? path =
      (fragment.nodeAt? path).map names.resolveFragment := by
  induction path generalizing fragment with
  | nil => rfl
  | cons place path ih =>
      rw [Fragment.nodeAt?, Fragment.nodeAt?, part?_resolveFragment]
      cases fragment.part? place with
      | none => rfl
      | some part => exact ih part

/-- Resolving the references of a fragment changes nothing else. -/
theorem resolvesOnly_resolveFragment (names : ModelNames) (fragment : Fragment) :
    names.ResolvesOnly fragment (names.resolveFragment fragment) where
  places path := by
    rw [nodeAt?_resolveFragment, Option.isSome_map]
  reference path reference hnode hgiven := by
    have hsome : names.resolve? reference ≠ none := by
      rw [ne_eq, resolve?_eq_none_iff, hgiven]
      exact Bool.false_ne_true
    obtain ⟨pointer, hpointer⟩ := Option.ne_none_iff_exists'.mp hsome
    refine ⟨pointer, hpointer, ?_⟩
    rw [nodeAt?_resolveFragment, hnode, Option.map_some, resolveFragment, hpointer]
  blank path reference hnode hblank := by
    rw [nodeAt?_resolveFragment, hnode, Option.map_some, resolveFragment,
      resolve?_eq_none_iff.mpr hblank]
  schema path schema hnode := by
    refine ⟨names.resolveSchema schema, ?_, ?_, ?_, ?_⟩
    · rw [nodeAt?_resolveFragment, hnode, Option.map_some, resolveFragment]
    · rw [resolveSchema_eq]
      rfl
    · rw [resolveSchema_eq]
      exact Option.isSome_map
    · rw [resolveSchema_eq]
      exact memberNames_mapMembers _ _

/-! ## Resolving again -/

/-- Whatever the resolver gives is resolved to itself. -/
def IsStable (names : ModelNames) : Prop :=
  ∀ pointer, names.Gives pointer → names.resolve? pointer = some pointer

/-- The names of any models are stable. -/
theorem isStable_ofIdentifiers (identifiers : List String) :
    (ofIdentifiers identifiers).IsStable := by
  rintro pointer ⟨reference, hreference⟩
  exact (endsAgree_ofIdentifiers identifiers).resolve?_of_resolve? hreference

mutual

/-- A resolved fragment is left alone. -/
theorem IsStable.resolveFragment_eq (h : names.IsStable) :
    ∀ fragment : Fragment, fragment.Resolved names → names.resolveFragment fragment = fragment
  | .ref pointer, hresolved => by
      have hgiven : names.Gives pointer := hresolved pointer List.mem_cons_self
      rw [resolveFragment, h pointer hgiven]
  | .inline schema, hresolved => by
      rw [resolveFragment, h.resolveSchema_eq schema (Fragment.resolved_inline_iff.mp hresolved)]

/-- A resolved schema is left alone. -/
theorem IsStable.resolveSchema_eq (h : names.IsStable) (schema : Schema)
    (hresolved : schema.Resolved names) : names.resolveSchema schema = schema := by
  match schema with
  | { items, properties, .. } =>
    rw [Schema.resolved_iff] at hresolved
    rw [resolveSchema.eq_def]
    dsimp only
    rw [h.resolveFragments_eq properties hresolved.2]
    match items with
    | none => rfl
    | some items =>
        dsimp only
        rw [h.resolveFragment_eq items (hresolved.1 items rfl)]

/-- Resolved named fragments are left alone. -/
theorem IsStable.resolveFragments_eq (h : names.IsStable) :
    ∀ fragments : List (String × Fragment), ResolvedFragments names fragments →
      names.resolveFragments fragments = fragments
  | [], _ => rfl
  | (name, fragment) :: rest, hresolved => by
      rw [ResolvedFragments, List.forall_mem_cons] at hresolved
      rw [resolveFragments, h.resolveFragment_eq fragment hresolved.1,
        h.resolveFragments_eq rest hresolved.2]

end

/-- A resolved fragment that is a pointer was given by the resolver. -/
theorem gives_of_resolveFragment_eq {fragment : Fragment} {pointer : String}
    (h : names.resolveFragment fragment = .ref pointer) : names.Gives pointer := by
  cases fragment with
  | ref reference =>
      rw [resolveFragment] at h
      split at h
      · next given hgiven => exact ⟨reference, hgiven.trans (congrArg some (Fragment.ref.inj h))⟩
      · exact Fragment.noConfusion h
  | inline schema =>
      rw [resolveFragment] at h
      exact Fragment.noConfusion h

/-- With the names of any models, resolving a fragment of any depth resolves its references and
changes nothing else. The references that are left point into the document, and resolving again
changes nothing. -/
theorem resolvesOnly_and_resolveFragment_resolveFragment (identifiers : List String)
    (fragment : Fragment) :
    (ofIdentifiers identifiers).ResolvesOnly fragment
        ((ofIdentifiers identifiers).resolveFragment fragment) ∧
      (∀ path pointer,
        ((ofIdentifiers identifiers).resolveFragment fragment).nodeAt? path =
            some (.ref pointer) →
          Text.startsWith pointer "#/" = true) ∧
      (ofIdentifiers identifiers).resolveFragment
          ((ofIdentifiers identifiers).resolveFragment fragment) =
        (ofIdentifiers identifiers).resolveFragment fragment := by
  refine ⟨resolvesOnly_resolveFragment _ fragment, ?_, ?_⟩
  · intro path pointer hnode
    rw [nodeAt?_resolveFragment, Option.map_eq_some_iff] at hnode
    obtain ⟨node, -, hpointer⟩ := hnode
    obtain ⟨reference, hreference⟩ := gives_of_resolveFragment_eq hpointer
    have hends := endsAgree_ofIdentifiers identifiers
    exact Text.startsWith_iff.mpr (hends.isPointer_of_resolve? hreference).front
  · exact (isStable_ofIdentifiers identifiers).resolveFragment_eq _
      (resolved_resolveFragment fragment)

end ModelNames

end AnnotatedApi
