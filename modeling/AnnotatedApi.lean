import AnnotatedApi.Annotation.Argument
import AnnotatedApi.Annotation.ArgumentReader
import AnnotatedApi.Annotation.Basic
import AnnotatedApi.Annotation.Declaration
import AnnotatedApi.Annotation.Extraction
import AnnotatedApi.Annotation.Reader
import AnnotatedApi.CommandLine.Arguments
import AnnotatedApi.CommandLine.Run
import AnnotatedApi.Config.Basic
import AnnotatedApi.Datum.Basic
import AnnotatedApi.Datum.Plain
import AnnotatedApi.Datum.Reader
import AnnotatedApi.Files.Access
import AnnotatedApi.Files.Format
import AnnotatedApi.Files.Path
import AnnotatedApi.Files.Store
import AnnotatedApi.Json.Basic
import AnnotatedApi.Json.Parser
import AnnotatedApi.Json.Printer
import AnnotatedApi.Json.Written
import AnnotatedApi.Main
import AnnotatedApi.Members
import AnnotatedApi.Model.Basic
import AnnotatedApi.Model.Discovery
import AnnotatedApi.Number.Basic
import AnnotatedApi.Number.Binary64
import AnnotatedApi.Number.Shortest
import AnnotatedApi.OpenApi.Builder
import AnnotatedApi.OpenApi.Document
import AnnotatedApi.OpenApi.Generation
import AnnotatedApi.OpenApi.Reading
import AnnotatedApi.OpenApi.Security
import AnnotatedApi.Operation.Construction
import AnnotatedApi.Operation.Templates
import AnnotatedApi.Operation.Verb
import AnnotatedApi.ParameterLocation
import AnnotatedApi.Project.Artifact
import AnnotatedApi.Project.Basic
import AnnotatedApi.Project.Failure
import AnnotatedApi.Project.Settings
import AnnotatedApi.Proofs.FirstSeen
import AnnotatedApi.Proofs.Members
import AnnotatedApi.Proofs.OpenApi.Answers
import AnnotatedApi.Proofs.OpenApi.Models
import AnnotatedApi.Proofs.OpenApi.OperationIds
import AnnotatedApi.Proofs.OpenApi.Parts
import AnnotatedApi.Proofs.OpenApi.PathParameters
import AnnotatedApi.Proofs.OpenApi.Paths
import AnnotatedApi.Proofs.OpenApi.References
import AnnotatedApi.Proofs.OpenApi.Security
import AnnotatedApi.Proofs.OpenApi.Tags
import AnnotatedApi.Proofs.Operation.Declared
import AnnotatedApi.Proofs.Operation.Pointers
import AnnotatedApi.Proofs.Route.Discovery
import AnnotatedApi.Proofs.Route.Placeholders
import AnnotatedApi.Proofs.Schema.ModelNames
import AnnotatedApi.Proofs.Schema.Pointers
import AnnotatedApi.Proofs.Schema.Reference
import AnnotatedApi.Proofs.Schema.Resolved
import AnnotatedApi.Proofs.Source.Path
import AnnotatedApi.Proofs.Text.Blank
import AnnotatedApi.Route.Address
import AnnotatedApi.Route.Basic
import AnnotatedApi.Route.Discovery
import AnnotatedApi.Route.Glob
import AnnotatedApi.Route.Manifest
import AnnotatedApi.Route.Regex
import AnnotatedApi.Route.Router
import AnnotatedApi.Schema.Basic
import AnnotatedApi.Schema.Cast
import AnnotatedApi.Schema.Construction
import AnnotatedApi.Schema.Reference
import AnnotatedApi.Source.Directory
import AnnotatedApi.Source.FieldOptions
import AnnotatedApi.Source.Grammar.Attribute
import AnnotatedApi.Source.Grammar.Basic
import AnnotatedApi.Source.Grammar.Expression
import AnnotatedApi.Source.Grammar.Item
import AnnotatedApi.Source.Grammar.Pattern
import AnnotatedApi.Source.Grammar.Statement
import AnnotatedApi.Source.Grammar.Type
import AnnotatedApi.Source.Index
import AnnotatedApi.Source.Lexer
import AnnotatedApi.Source.ModulePath
import AnnotatedApi.Source.NameTable
import AnnotatedApi.Source.Parser
import AnnotatedApi.Source.Syntax
import AnnotatedApi.Source.Token
import AnnotatedApi.Source.TypeHints
import AnnotatedApi.Text.Blank
import AnnotatedApi.Text.Inflection
import AnnotatedApi.Text.LetterTables
import AnnotatedApi.Text.Letters
import AnnotatedApi.Text.Words
import AnnotatedApi.Yaml.Cursor
import AnnotatedApi.Yaml.Lexer
import AnnotatedApi.Yaml.Parser
import AnnotatedApi.Yaml.Printer
import AnnotatedApi.Yaml.Scalar
import AnnotatedApi.Yaml.Style
import AnnotatedApi.Yaml.Token
import AnnotatedApi.Proofs.Route.Memory
import AnnotatedApi.Proofs.Annotation.Inert
import AnnotatedApi.Proofs.OpenApi.Malformed
import AnnotatedApi.Proofs.Config.Reading
import AnnotatedApi.Proofs.Datum.Placement
import AnnotatedApi.Proofs.Datum.Record
import AnnotatedApi.Proofs.OpenApi.BadSchemes
import AnnotatedApi.Proofs.OpenApi.ReadingBack
import AnnotatedApi.Proofs.Annotation.Extracted
import AnnotatedApi.Proofs.Config.Loaded
import AnnotatedApi.Proofs.OpenApi.Artifact
import AnnotatedApi.Proofs.Route.Reserved
import AnnotatedApi.Proofs.OpenApi.LeadingSlashes
import AnnotatedApi.Proofs.Operation.Statuses
import AnnotatedApi.Proofs.Route.RouterUnits
import AnnotatedApi.Proofs.Route.SharedNames
import AnnotatedApi.Proofs.Source.FileOrder
import AnnotatedApi.Proofs.Source.ModulePath
import AnnotatedApi.Proofs.Route.Chains
import AnnotatedApi.Proofs.Annotation.PrintedText
import AnnotatedApi.Proofs.Schema.Declarations
import AnnotatedApi.Proofs.Schema.Fields
import AnnotatedApi.Proofs.Schema.Shapes
import AnnotatedApi.Proofs.Schema.Models
import AnnotatedApi.Proofs.Schema.Nesting
import AnnotatedApi.Proofs.Model.Fields
import AnnotatedApi.Proofs.Model.Hiding
import AnnotatedApi.Proofs.Model.SchemaProperties
import AnnotatedApi.Proofs.Model.Renaming
import AnnotatedApi.Proofs.Text.Segments
import AnnotatedApi.Proofs.Schema.NormalForm
import AnnotatedApi.Proofs.Schema.Resolution
import AnnotatedApi.Proofs.Operation.Parameters
import AnnotatedApi.Proofs.Route.Glob
import AnnotatedApi.Proofs.Route.Regex
import AnnotatedApi.Proofs.Annotation.Integers
import AnnotatedApi.Proofs.Annotation.ArgumentOrder
import AnnotatedApi.Proofs.Annotation.Entries
import AnnotatedApi.Proofs.Annotation.NamedProperties
import AnnotatedApi.Proofs.Text.Words
import AnnotatedApi.Proofs.Text.Inflection
import AnnotatedApi.Proofs.Operation.HandledModels
import AnnotatedApi.Proofs.Source.NameTable
import AnnotatedApi.Proofs.Source.FieldOptions
import AnnotatedApi.Proofs.Datum.FieldOrder
import AnnotatedApi.Proofs.Route.Manifest
import AnnotatedApi.Proofs.Route.Joining
import AnnotatedApi.Proofs.Route.NestedParameters
import AnnotatedApi.Proofs.Text.Plurals
