import AnnotatedApi.Number.Basic
import AnnotatedApi.Members

/-! # JSON values

JSON values whose objects keep the order of their members. A value built by this library never
holds two members of one name. -/

namespace AnnotatedApi

/-- A JSON value. -/
inductive Json where
  | null
  | bool (value : Bool)
  | number (value : Number)
  | text (value : String)
  | array (items : List Json)
  | object (members : List (String × Json))
  deriving Repr, Inhabited

namespace Json

/-- A number from an integer. -/
def int (value : Int) : Json := .number (.int value)

/-- A list of texts. -/
def texts (items : List String) : Json := .array (items.map .text)

/-- A text, or null when there is none. -/
def textOrNull : Option String → Json
  | none => .null
  | some value => .text value

/-- The value of the first member of a name in an object. -/
def get? (name : String) : Json → Option Json
  | .object members => getMember? name members
  | _ => none

/-- The text that a value is. -/
def asText? : Json → Option String
  | .text value => some value
  | _ => none

mutual

/-- Keep one member of each name, at the place of the first with the value of the last, at every
depth. -/
def collect : Json → Json
  | .array items => .array (collectItems items)
  | .object members => .object (collectMembers (collectEntries members))
  | value => value

/-- Apply `collect` to every item. -/
def collectItems : List Json → List Json
  | [] => []
  | item :: rest => item.collect :: collectItems rest

/-- Apply `collect` to the value of every member. -/
def collectEntries : List (String × Json) → List (String × Json)
  | [] => []
  | (name, value) :: rest => (name, value.collect) :: collectEntries rest

end

end Json

end AnnotatedApi
