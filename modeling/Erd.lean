import Erd.Canvas.Basic
import Erd.Canvas.Edit
import Erd.ColumnType
import Erd.CommandLine.Command
import Erd.CommandLine.Grammar
import Erd.CommandLine.Item
import Erd.CommandLine.Run
import Erd.CommandLine.Scan
import Erd.CommandLine.Usage
import Erd.Dbml.Document
import Erd.Dbml.Line
import Erd.Dbml.Reader
import Erd.Dbml.TypeName
import Erd.Dbml.Writer
import Erd.Diagram.Basic
import Erd.Diagram.Document
import Erd.Diagram.Loading
import Erd.Dialect
import Erd.Files.Path
import Erd.Files.Tree
import Erd.Grid
import Erd.Interchange
import Erd.Journal
import Erd.Journal.Sink
import Erd.Json.Basic
import Erd.Json.Printer
import Erd.Json.Reader
import Erd.JsonSchema.Reader
import Erd.Main
import Erd.Mermaid
import Erd.Number.Binary64
import Erd.Number.Integer
import Erd.Number.Shortest
import Erd.Outline
import Erd.Proofs.Consistency
import Erd.Proofs.Dbml.Document
import Erd.Proofs.Dbml.Line
import Erd.Proofs.Dbml.RoundTrip
import Erd.Proofs.Loading
import Erd.Proofs.Outline
import Erd.Proofs.Sql.Body
import Erd.Proofs.Sql.Definition
import Erd.Proofs.Sql.RoundTrip
import Erd.Proofs.Sql.Script
import Erd.Proofs.Sql.TableDefinition
import Erd.Proofs.Sql.TableOrder
import Erd.Proofs.Text
import Erd.Reading
import Erd.Settings
import Erd.Sql.Body
import Erd.Sql.Command
import Erd.Sql.Comment
import Erd.Sql.Definition
import Erd.Sql.Reader
import Erd.Sql.Script
import Erd.Sql.TableDefinition
import Erd.Sql.TableOrder
import Erd.Sql.TypeName
import Erd.Sql.Writer
import Erd.Text.Blank
import Erd.Text.CaseTable
import Erd.Text.DigitTable
import Erd.Text.LetterCase
import Erd.Text.Name
import Erd.Text.PrintableTable
import Erd.Text.Quoted
import Erd.Text.Word
import Erd.Text.WordTable
import Erd.TypeScript
import Erd.Workbench
import Erd.Proofs.Canvas.RoundTrip
import Erd.Proofs.Canvas.Agreement
import Erd.Proofs.Dbml.Accounting
import Erd.Proofs.Dbml.Grammar
import Erd.Proofs.LetterCase
import Erd.Proofs.Sql.LetterCase.Definition
import Erd.Proofs.Sql.LetterCase.Script
import Erd.Proofs.Dangling
import Erd.Proofs.Building
import Erd.Proofs.CommandLine.Verdict
import Erd.Proofs.Translation
import Erd.Proofs.Sql.Linking
import Erd.Proofs.Sql.Arrangement
import Erd.Proofs.Sql.Layout
import Erd.Proofs.Sql.DeclarationOrder
import Erd.Proofs.Json.Scalar
import Erd.Proofs.Json.RoundTrip
import Erd.Proofs.Storing
import Erd.Proofs.CommandLine.Choices
import Erd.Proofs.CommandLine.Conversion
import Erd.Proofs.Sql.Accounting
import Erd.Proofs.Sql.KeyLinks
import Erd.Proofs.Sql.Cardinality
import Erd.Proofs.Sql.KeyFlags
import Erd.Proofs.Sql.Respelling
import Erd.Proofs.Sql.Literals
import Erd.Proofs.Sql.Ties
import Erd.Proofs.Sql.DefinedNames
import Erd.Proofs.Json.DistinctKeys
import Erd.Proofs.JsonSchema.Import
import Erd.Proofs.JsonSchema.Pointers
import Erd.Proofs.Sql.Reordering
import Erd.Proofs.Sql.LineComments
import Erd.Proofs.Sql.SourceLines
import Erd.Proofs.Dbml.SettingReference
import Erd.Proofs.Dbml.Parts
import Erd.Proofs.Dbml.ReferenceSpellings
import Erd.Proofs.Sql.Parentheses
import Erd.Proofs.Sql.Commas
import Erd.Proofs.Shapes
import Erd.Proofs.Refusal
import Erd.Proofs.CommandLine.Crashes
import Erd.Proofs.Placement
