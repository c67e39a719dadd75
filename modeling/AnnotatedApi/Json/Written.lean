import AnnotatedApi.Json.Basic

/-! # JSON values as they are written

A JSON text can hold numbers that are too large and texts with half of a pair of surrogates, and it
can nest as deep as it likes. Such parts do no harm where nobody wants their value. What a text says
is therefore read into a value as it is written, and only then into the value that it stands for. -/

namespace AnnotatedApi.Json

/-- A JSON value as it is written. A number or a text that stands for nothing is none. -/
inductive Written where
  | null
  | bool (value : Bool)
  | number (value : Option Number)
  | text (value : Option String)
  | array (items : List Written)
  | object (members : List (Option String × Written))
  deriving Inhabited

namespace Written

/-- The value that a written one stands for, in which brackets and braces nest at most `depth`
levels. Members are kept as written, repeated names included. -/
def value? : Nat → Written → Option Json
  | _, null => some .null
  | _, bool value => some (.bool value)
  | _, number value => value.map .number
  | _, text value => value.map .text
  | 0, array _ => none
  | depth + 1, array items => (items.mapM (value? depth)).map .array
  | 0, object _ => none
  | depth + 1, object members =>
      (members.mapM fun (member : Option String × Written) => do
        let name ← member.1
        let value ← value? depth member.2
        return (name, value)).map .object

end Written

end AnnotatedApi.Json
