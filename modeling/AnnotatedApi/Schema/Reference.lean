import AnnotatedApi.Schema.Basic
import AnnotatedApi.Text.Blank

/-! # References to schemas

A schema is referred to by a pointer into the document, by the identifier of a model, or by any
other name. All three come down to one pointer, and resolving a pointer changes nothing. -/

namespace AnnotatedApi

/-- What every pointer to a schema of the document starts with. -/
def schemaPointerFront : String := "#/components/schemas/"

/-- The pointer to the schema of a name. -/
def schemaPointer (name : String) : String :=
  schemaPointerFront ++ name

/-- The names by which models are referred to, each with the name of the model's schema. -/
structure ModelNames where
  entries : List (String × String) := []

namespace ModelNames

/-- Add the identifier of a model: the whole of it, what follows `crate::`, and its short name,
which stays with the model that had it first. -/
def add (names : ModelNames) (identifier : String) : ModelNames :=
  let short := Text.lastSegment identifier
  let entries := putMember identifier short names.entries
  let entries :=
    match Text.stripFront? "crate::".toList identifier.toList with
    | some relative => putMember (String.ofList relative) short entries
    | none => entries
  ⟨addMember short short entries⟩

/-- The names of models with the given identifiers. -/
def ofIdentifiers (identifiers : List String) : ModelNames :=
  identifiers.foldl add {}

/-- The pointer that a reference stands for; a blank one stands for none. -/
def resolve? (names : ModelNames) (reference : String) : Option String :=
  let reference := Text.trim reference
  if reference == "" then none
  else if Text.startsWith reference "#/" then some reference
  else
    match getMember? reference names.entries with
    | some name => some (schemaPointer name)
    | none => some (schemaPointer reference)

/-- The fragment that a reference stands for. -/
def fragment? (names : ModelNames) (reference : String) : Option Fragment :=
  (names.resolve? reference).map .ref

/-- The fragment that an optional reference stands for. -/
def optionalFragment? (names : ModelNames) (reference : Option String) : Option Fragment :=
  reference.bind names.fragment?

mutual

/-- Resolve every reference within a fragment; a blank one becomes an object. -/
def resolveFragment (names : ModelNames) : Fragment → Fragment
  | .ref pointer =>
      match names.resolve? pointer with
      | some pointer => .ref pointer
      | none => .inline (.typed "object")
  | .inline schema => .inline (names.resolveSchema schema)

/-- Resolve every reference within a schema. -/
def resolveSchema (names : ModelNames) (schema : Schema) : Schema :=
  match schema with
  | { items, properties, .. } =>
    { schema with
      items := match items with
        | some items => some (names.resolveFragment items)
        | none => none
      properties := names.resolveFragments properties }

/-- Resolve every reference within named fragments. -/
def resolveFragments (names : ModelNames) : List (String × Fragment) → List (String × Fragment)
  | [] => []
  | (name, fragment) :: rest =>
      (name, names.resolveFragment fragment) :: names.resolveFragments rest

end

end ModelNames

end AnnotatedApi
