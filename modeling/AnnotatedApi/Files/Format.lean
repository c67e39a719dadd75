import AnnotatedApi.Files.Path
import AnnotatedApi.Json.Parser
import AnnotatedApi.Json.Printer
import AnnotatedApi.Text.Letters
import AnnotatedApi.Yaml.Parser
import AnnotatedApi.Yaml.Printer

/-! # Formats of data files

Configurations, route manifests and documents are files in JSON or YAML. The ending of a file's name
says which. -/

namespace AnnotatedApi

/-- The formats of data files. -/
inductive DataFormat where
  | json
  | yaml
  deriving DecidableEq, Repr

namespace DataFormat

/-- The name of a format, which is also the ending of its files. -/
def name : DataFormat → String
  | json => "json"
  | yaml => "yaml"

/-- The format of a name. -/
def ofName? (name : String) : Option DataFormat :=
  [json, yaml].find? fun format => format.name == name

/-- The format of a file: JSON where its name ends so in any letter case, otherwise YAML. -/
def ofPath (path : String) : DataFormat :=
  match FilePath.extension? path with
  | some ending => if Text.eqIgnoringAsciiCase ending json.name then json else yaml
  | none => yaml

/-- Read the data in a text of a format. JSON knows no aliases. -/
def read? (format : DataFormat) (text : String) : Option DataFile :=
  match format with
  | json => (Json.Written.parse? text).map fun written =>
      { root := .ofWritten written, maxDepth := Json.maxDepth }
  | yaml => Yaml.parse? text

/-- Write a value in a format. -/
def print (format : DataFormat) (value : Json) : String :=
  match format with
  | json => value.pretty
  | yaml => Yaml.print value

end DataFormat

end AnnotatedApi
