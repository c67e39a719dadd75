import AnnotatedApi.Datum.Basic
import AnnotatedApi.Members

/-! # Reading data

A reader asks a datum for a value of some type. A scalar is a text for whoever wants a text, even
where it looks like a number. A record is read by its fields: each at most once, under one of its
names, and others are ignored. Only what is read counts: aliases are followed and nesting is limited
there, while parts that are ignored can hold anything. -/

namespace AnnotatedApi

/-- What holds where a datum is read: the levels of nesting that are left, and the nodes that
aliases stand for. -/
structure ReadSetting where
  depth : Nat
  nodes : List (Nat × Datum) := []

/-- A value that is being read, or a failure. The state is the number of aliases that may still be
followed. -/
abbrev Read : Type → Type := ReaderT ReadSetting (StateT Nat Option)

namespace Datum

/-- A reader of values. -/
abbrev Reader (α : Type) : Type := Datum → Read α

/-- A value that may not be there, which is a failure. -/
def found (value : Option α) : Read α :=
  match value with
  | some value => return value
  | none => failure

/-- Read on a level of nesting further down. -/
def within (act : Read α) : Read α := fun setting =>
  match setting.depth with
  | 0 => failure
  | depth + 1 => act { setting with depth }

/-- Read a datum that stands for itself, at any depth. -/
def read? (d : Datum) (reader : Reader α) : Option α :=
  ((reader d).run { depth := d.depth + 1 }).run' 0

/-! ## Aliases and tags -/

/-- The node that an alias stands for; any other datum stands for itself. -/
def resolve : Reader Datum
  | .alias node => do
      match ← get with
      | 0 => failure
      | jumps + 1 =>
          set jumps
          found ((← read).nodes.lookup node)
  | d => return d

/-- The datum without the tag of a list or a record. -/
def untagged : Datum → Datum
  | .tagged value => value
  | d => d

/-- The list or record that a datum stands for. -/
def content : Reader Datum := fun d => do
  return (← resolve d).untagged

/-! ## Scalars -/

/-- Read a text. -/
def readText : Reader String := fun d => do
  match ← resolve d with
  | .text value => return value
  | .scalar _ _ written => return written
  | _ => failure

/-- Read a boolean. A block of lines has to say that it is one. -/
def readBool : Reader Bool := fun d => do
  match ← resolve d with
  | .bool value => return value
  | .scalar .plain _ written => found (Plain.bool? written)
  | .scalar .literal (some .bool) written => found (Plain.bool? written)
  | _ => failure

/-- Read a number. -/
def readNumber : Reader Number := fun d => do
  match ← resolve d with
  | .number value => return value
  | _ => failure

/-- Read a natural number. -/
def readNat : Reader Nat := fun d => do
  found (← readNumber d).toNat?

/-- Whether a datum stands for nothing; none if its tag says so and it is no word for null. -/
def isNull? : Datum → Option Bool
  | .null => some true
  | .scalar .plain none written => some (written == "" || Plain.isNullWord written)
  | .scalar .plain (some .null) written => if Plain.isNullWord written then some true else none
  | _ => some false

/-- Read a value, or null for none. -/
def optional (reader : Reader α) : Reader (Option α) := fun d => do
  let d ← resolve d
  if ← found d.isNull? then return none else return some (← reader d)

/-! ## Lists and records -/

/-- Whether nothing at all is written, which counts as a list or a record without contents. -/
def isBlank : Datum → Bool
  | .scalar .plain _ "" => true
  | _ => false

/-- Read a list of values. -/
def listOf (reader : Reader α) : Reader (List α) := fun d => do
  match ← content d with
  | .list _ items => within (items.mapM reader)
  | d => if d.isBlank then return [] else failure

/-- Read a list of texts. -/
def readTexts : Reader (List String) := listOf readText

/-- Read a member whose key is a text. -/
def readMember (reader : Reader α) (member : Datum × Datum) : Read (String × α) := do
  let name ← readText member.1
  let value ← reader member.2
  return (name, value)

/-- Read a record whose members have names of any kind; of repeated ones the last counts, in the
place of the first. -/
def membersOf (reader : Reader α) : Reader (List (String × α)) := fun d => do
  match ← content d with
  | .record members => return collectMembers (← within (members.mapM (readMember reader)))
  | d => if d.isBlank then return [] else failure

/-! ## Settling

Where it is not known beforehand what is wanted of a datum, it is settled first: each scalar becomes
what it is by its tag or its look, and each alias what it stands for. -/

/-- Settle a datum that nests at most as deep as the first argument says. -/
def settleFrom : Nat → Reader Datum
  | depth, d => do
      match ← resolve d with
      | .scalar style tag written => found (settleScalar style tag written)
      | .list _ items =>
          match depth with
          | 0 => failure
          | depth + 1 => return .list true (← items.mapM (settleFrom depth))
      | .record members =>
          match depth with
          | 0 => failure
          | depth + 1 =>
              return .record (← members.mapM fun member => do
                let key ← settleFrom depth member.1
                let value ← settleFrom depth member.2
                return (key, value))
      | .broken => failure
      | .tagged _ => failure
      | .alias _ => failure
      | d => return d

/-- Settle a datum. -/
def settle : Reader Datum := fun d => do
  settleFrom (← read).depth d

/-- Read a datum after it is settled. -/
def settled (reader : Reader α) : Reader α := fun d => do
  found ((← settle d).read? reader)

/-! ## JSON values -/

/-- Read any value that nests at most as deep as the first argument says as JSON; a number that is
not finite counts as null. -/
def jsonFrom : Nat → Reader Json
  | depth, d => do
      match ← resolve d with
      | .null => return .null
      | .nonFinite => return .null
      | .bool value => return .bool value
      | .number value => return .number value
      | .text value => return .text value
      | .scalar style tag written =>
          match settleScalar style tag written with
          | some .null => return .null
          | some .nonFinite => return .null
          | some (.bool value) => return .bool value
          | some (.number value) => return .number value
          | some (.text value) => return .text value
          | _ => failure
      | .list _ items =>
          match depth with
          | 0 => failure
          | depth + 1 => return .array (← items.mapM (jsonFrom depth))
      | .record members =>
          match depth with
          | 0 => failure
          | depth + 1 =>
              return .object (collectMembers (← members.mapM (readMember (jsonFrom depth))))
      | _ => failure

/-- Read any value as JSON. -/
def readJson : Reader Json := fun d => do
  jsonFrom (← read).depth d

/-! ## Fields -/

/-- The names of a field: the one it is written under, and others it is known by. -/
abbrev FieldNames : Type := List String

/-- Which field a key means, or none for a key of no field. A settled natural number is the position
of a field; any other key that is no text is an error. -/
def readField (fields : List FieldNames) : Reader (Option Nat)
  | .number value => do
      let n ← found value.toNat?
      return if n < fields.length then some n else none
  | key => do
      let name ← readText key
      return fields.findIdx? fun names => names.contains name

/-- Put a member into its slot, which has to be free. -/
def placeMember (fields : List FieldNames) (slots : List (Option Datum))
    (member : Datum × Datum) : Read (List (Option Datum)) := do
  match ← readField fields member.1 with
  | none => return slots
  | some i =>
      match slots[i]? with
      | some none => return slots.set i (some member.2)
      | _ => failure

/-- Read a record by its fields, in the given order. -/
def recordOf (fields : List FieldNames) (build : List (Option Datum) → Read α) : Reader α :=
  fun d => do
    let vacant : List (Option Datum) := List.replicate fields.length none
    match ← content d with
    | .list true items =>
        if items.length ≤ fields.length then
          within (build (items.map some ++ vacant.drop items.length))
        else failure
    | .record members => within (members.foldlM (placeMember fields) vacant >>= build)
    | d => if d.isBlank then build vacant else failure

/-- Read a field that has to be there. -/
def need (reader : Reader α) (slot : Option Datum) : Read α := do
  reader (← found slot)

/-- Read a field, with a value for when it is not there. -/
def orElse (default : α) (reader : Reader α) (slot : Option Datum) : Read α :=
  match slot with
  | some d => reader d
  | none => return default

/-- Read a field that may be null or not there. -/
def maybe (reader : Reader α) (slot : Option Datum) : Read (Option α) :=
  orElse none (optional reader) slot

end Datum

/-- Read the data of a file. -/
def DataFile.read? (file : DataFile) (reader : Datum.Reader α) : Option α :=
  ((reader file.root).run { depth := file.maxDepth, nodes := file.nodes }).run' file.maxJumps

end AnnotatedApi
