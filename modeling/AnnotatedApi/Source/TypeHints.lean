import AnnotatedApi.Source.Syntax

/-! # What a field's type says about its values

A field may be optional, and the name of its type hints at how its values are stored. -/

namespace AnnotatedApi.Source.TypeExpr

/-- The type within `Option`, if the type is optional. -/
def optional? (type : TypeExpr) : Option TypeExpr :=
  match type.lastSegment? with
  | some (.mk "Option" _ (some inner) _) => some inner
  | _ => none

/-- Whether the type is optional, and the type of the value if there is one. -/
def unwrapOption (type : TypeExpr) : Bool × TypeExpr :=
  match type.optional? with
  | some inner => (true, inner)
  | none => (false, type)

/-- The storage hint of a type name. -/
def hintOfName? (name : String) : Option String :=
  if ["i8", "i16", "i32", "i64", "i128", "isize", "u8", "u16", "u32", "u64", "u128",
      "usize"].contains name then some "integer"
  else if ["f32", "f64"].contains name then some "float"
  else if ["Decimal", "BigDecimal"].contains name then some "decimal"
  else if name == "bool" then some "boolean"
  else if ["String", "str", "char"].contains name then some "string"
  else if ["Vec", "VecDeque", "HashSet", "BTreeSet", "IndexSet"].contains name then some "array"
  else if ["HashMap", "BTreeMap", "IndexMap"].contains name then some "object"
  else if ["Value", "JsonValue"].contains name then some "json"
  else if ["NaiveDate", "Date"].contains name then some "date"
  else if ["NaiveDateTime", "DateTime", "OffsetDateTime", "PrimitiveDateTime", "SystemTime",
      "Timestamp"].contains name then some "datetime"
  else none

mutual

/-- The storage hint of a type. References are looked through, and one `Option` in front of each;
`mayUnwrap` tells whether that one is still to come. -/
def hintFrom? (mayUnwrap : Bool) : TypeExpr → Option String
  | .path _ _ segments => hintOfSegments? mayUnwrap segments
  | .reference target => target.hintFrom? true
  | .sequence _ => some "array"
  | .bounds _ _ => none
  | .other _ => none

/-- The storage hint of the last segment of a path. -/
def hintOfSegments? (mayUnwrap : Bool) : List PathSegment → Option String
  | [] => none
  | [segment] => hintOfSegment? mayUnwrap segment
  | _ :: rest => hintOfSegments? mayUnwrap rest

/-- The storage hint of a segment. -/
def hintOfSegment? (mayUnwrap : Bool) : PathSegment → Option String
  | .mk name _ (some first) _ =>
      if mayUnwrap && name == "Option" then first.hintFrom? false else hintOfName? name
  | .mk name _ none _ => hintOfName? name

end

/-- The storage hint of a type. -/
def castHint? (type : TypeExpr) : Option String :=
  type.hintFrom? true

end AnnotatedApi.Source.TypeExpr
