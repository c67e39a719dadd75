import AnnotatedApi.Datum.Basic

/-! # Tokens of YAML texts

The tokens of a text spell out its structure: where block collections start and end by their
columns, and which nodes are keys. -/

namespace AnnotatedApi.Yaml

/-- The bytes of a text. -/
def textBytes (text : String) : List UInt8 :=
  text.toUTF8.toList

/-- A token. -/
inductive Token where
  | versionDirective (major minor : Nat)
  | tagDirective (handle : String) (expansion : List UInt8)
  | documentStart
  | documentEnd
  | blockSequenceStart
  | blockMappingStart
  | blockEnd
  | flowSequenceStart
  | flowSequenceEnd
  | flowMappingStart
  | flowMappingEnd
  | blockEntry
  | flowEntry
  | key
  | value
  | alias (name : String)
  | anchor (name : String)
  | tag (handle : String) (suffix : List UInt8)
  | scalar (style : ScalarStyle) (text : String)
  deriving DecidableEq, Repr

end AnnotatedApi.Yaml
