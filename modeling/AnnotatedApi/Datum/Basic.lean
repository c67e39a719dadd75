import AnnotatedApi.Datum.Plain
import AnnotatedApi.Json.Written

/-! # Data read from files

What a configuration, a manifest or a document holds before it is known what is wanted of it. A
scalar without quotes can be a text or something else, an alias stands for a node that was named,
and a JSON number can be too large: all of that only matters to who reads it. -/

namespace AnnotatedApi

/-- How a scalar is written: without quotes, as a block whose lines are kept, or otherwise. -/
inductive ScalarStyle where
  | plain
  | literal
  | other
  deriving DecidableEq, Repr

/-- The tag in front of a scalar. -/
inductive ScalarTag where
  | bool
  | int
  | float
  | null
  /-- A tag of the text's own. -/
  | own (name : String)
  /-- A tag of the text's own whose name is no text. -/
  | nameless
  | other
  deriving DecidableEq, Repr

/-- A datum. -/
inductive Datum where
  | null
  | bool (value : Bool)
  | number (value : Number)
  /-- An infinity, or a number that is none. -/
  | nonFinite
  | text (value : String)
  /-- A number that is too large, or a text with half of a pair of surrogates. -/
  | broken
  /-- A scalar as it is written. -/
  | scalar (style : ScalarStyle) (tag : Option ScalarTag) (written : String)
  /-- A list; where it is `positional` it can stand for a record, whose fields it holds in order. -/
  | list (positional : Bool) (items : List Datum)
  | record (members : List (Datum × Datum))
  /-- A list or a record with a tag of the text's own. -/
  | tagged (value : Datum)
  /-- What stands for a node that was named elsewhere. -/
  | alias (node : Nat)
  deriving Inhabited

namespace Datum

/-! ## Data of JSON values -/

mutual

/-- The datum of a JSON value. -/
def ofJson : Json → Datum
  | .null => .null
  | .bool value => .bool value
  | .number value => .number value
  | .text value => .text value
  | .array items => .list true (ofItems items)
  | .object members => .record (ofMembers members)

/-- The data of the items of an array. -/
def ofItems : List Json → List Datum
  | [] => []
  | item :: rest => ofJson item :: ofItems rest

/-- The data of the members of an object. -/
def ofMembers : List (String × Json) → List (Datum × Datum)
  | [] => []
  | (name, value) :: rest => (.text name, ofJson value) :: ofMembers rest

end

/-- The datum of a text, if there is one. -/
def ofText (value : Option String) : Datum :=
  match value with
  | some value => .text value
  | none => .broken

mutual

/-- The datum of a JSON value as it is written. -/
def ofWritten : Json.Written → Datum
  | .null => .null
  | .bool value => .bool value
  | .number (some value) => .number value
  | .number none => .broken
  | .text value => ofText value
  | .array items => .list true (ofWrittenItems items)
  | .object members => .record (ofWrittenMembers members)

/-- The data of the items of an array. -/
def ofWrittenItems : List Json.Written → List Datum
  | [] => []
  | item :: rest => ofWritten item :: ofWrittenItems rest

/-- The data of the members of an object. -/
def ofWrittenMembers : List (Option String × Json.Written) → List (Datum × Datum)
  | [] => []
  | (name, value) :: rest => (ofText name, ofWritten value) :: ofWrittenMembers rest

end

/-! ## Depth and size -/

mutual

/-- How deep lists and records nest in a datum. -/
def depth : Datum → Nat
  | .list _ items => depthOfItems items + 1
  | .record members => depthOfMembers members + 1
  | .tagged value => value.depth
  | _ => 0

/-- The greatest depth of the items of a list. -/
def depthOfItems : List Datum → Nat
  | [] => 0
  | item :: rest => max item.depth (depthOfItems rest)

/-- The greatest depth of the members of a record. -/
def depthOfMembers : List (Datum × Datum) → Nat
  | [] => 0
  | (key, value) :: rest => max (max key.depth value.depth) (depthOfMembers rest)

end

mutual

/-- The number of scalars, aliases, and starts and ends of lists and records in a datum. -/
def size : Datum → Nat
  | .list _ items => sizeOfItems items + 2
  | .record members => sizeOfMembers members + 2
  | .tagged value => value.size
  | _ => 1

/-- The size of the items of a list. -/
def sizeOfItems : List Datum → Nat
  | [] => 0
  | item :: rest => item.size + sizeOfItems rest

/-- The size of the members of a record. -/
def sizeOfMembers : List (Datum × Datum) → Nat
  | [] => 0
  | (key, value) :: rest => key.size + value.size + sizeOfMembers rest

end

/-! ## Settled scalars -/

/-- The datum of what a scalar is; an integer beyond 64 bits is none. -/
def ofKind? (written : String) : Plain.Kind → Option Datum
  | .null => some .null
  | .bool value => some (.bool value)
  | .number value => some (.number value)
  | .oversized => none
  | .nonFinite => some .nonFinite
  | .text => some (.text written)

/-- What a scalar is by the way it is written. -/
def settleBare (style : ScalarStyle) (written : String) : Option Datum :=
  if style = .plain then ofKind? written (Plain.kind written) else some (.text written)

/-- What a scalar is by its tag, or else by the way it is written; none if it does not fit its tag,
or if the tag is one of the text's own. -/
def settleScalar (style : ScalarStyle) (tag : Option ScalarTag) (written : String) : Option Datum :=
  match tag with
  | none => settleBare style written
  | some .nameless => settleBare style written
  | some .bool => (Plain.bool? written).map .bool
  | some .int => (Plain.integerKind? written).bind (ofKind? written)
  | some .float => (Plain.realKind? written).bind (ofKind? written)
  | some .null => if Plain.isNullWord written then some .null else none
  | some (.own _) => none
  | some .other => some (.text written)

end Datum

/-- The data of a file: its root, the nodes that aliases stand for, and the limits of reading it,
which are the levels of nesting and the number of aliases that may be followed. -/
structure DataFile where
  root : Datum
  nodes : List (Nat × Datum) := []
  maxDepth : Nat
  maxJumps : Nat := 0

end AnnotatedApi
