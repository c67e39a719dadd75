import AnnotatedApi.Schema.Basic
import AnnotatedApi.Text.Letters
import AnnotatedApi.Text.Blank

/-! # Schemas of storage casts

A cast such as `decimal:2` or `encrypted:array` says how the values of a field are stored. Casts
fall into a few families, each with one schema. -/

namespace AnnotatedApi

/-- A family of casts. -/
inductive CastFamily where
  | integer
  | number
  | boolean
  | array
  | object
  | date
  | dateTime
  | string
  deriving DecidableEq, Repr

namespace CastFamily

/-- The name of a cast without its case, its encryption and its arguments. -/
def baseName (cast : String) : String :=
  let lowered := Text.lower (Text.trim cast)
  let plain :=
    match Text.stripFront? "encrypted:".toList lowered.toList with
    | some rest => rest
    | none => lowered.toList
  String.ofList (Text.trimChars (plain.takeWhile (· ≠ ':')))

/-- The family of a cast; one that is not known stores a string. -/
def ofCast (cast : String) : CastFamily :=
  let base := baseName cast
  if ["int", "integer", "bigint", "smallint", "tinyint", "mediumint"].contains base then integer
  else if ["real", "float", "double", "decimal"].contains base then number
  else if ["bool", "boolean"].contains base then boolean
  else if ["array", "json", "jsonb", "collection", "set"].contains base then array
  else if base == "object" then object
  else if ["date", "immutable_date"].contains base then date
  else if ["datetime", "immutable_datetime", "custom_datetime", "timestamp"].contains base then
    dateTime
  else string

/-- The schema of a family. The elements of a stored array are not known and count as strings. -/
def schema : CastFamily → Schema
  | integer => .typed "integer"
  | number => .formatted "number" "float"
  | boolean => .typed "boolean"
  | array => .arrayOf (.inline (.typed "string"))
  | object => .typed "object"
  | date => .formatted "string" "date"
  | dateTime => .formatted "string" "date-time"
  | string => .typed "string"

end CastFamily

/-- The schema that a cast implies; a string where there is none. -/
def Schema.ofCast (cast : Option String) : Schema :=
  match cast with
  | some cast => (CastFamily.ofCast cast).schema
  | none => CastFamily.string.schema

end AnnotatedApi
