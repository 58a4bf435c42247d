import Erd.Dbml.Reader
import Erd.Dbml.Writer
import Erd.Diagram.Loading
import Erd.Json.Printer
import Erd.JsonSchema.Reader
import Erd.Mermaid
import Erd.Sql.Reader
import Erd.Sql.Writer
import Erd.TypeScript

/-!
# Interchange between formats

One reading and one writing function for all formats. Reading a diagram document is strict: it gives the
diagram as it stands, with its own ids, or fails; reading any other format gives what can be used.

These have no limits. Whether a text runs into limits, and whether a diagram has numbers that are too long to be
written, is asked beforehand.
-/
namespace Erd

/-- A format that can be read. -/
inductive InputFormat where
  | sql
  | dbml
  | jsonSchema
  | document
  deriving DecidableEq, Repr

namespace InputFormat

/-- Every format, in the order in which messages list them. -/
def all : List InputFormat := [.sql, .dbml, .jsonSchema, .document]

/-- The name of a format. -/
def name : InputFormat → String
  | .sql => "sql"
  | .dbml => "dbml"
  | .jsonSchema => "jsonschema"
  | .document => "json"

/-- The format with a name. -/
def ofName? (s : String) : Option InputFormat := all.find? fun f => f.name == s

end InputFormat

/-- A format that can be written. -/
inductive OutputFormat where
  | sql
  | dbml
  | mermaid
  | typeScript
  | document
  deriving DecidableEq, Repr

namespace OutputFormat

/-- Every format, in the order in which messages list them. -/
def all : List OutputFormat := [.sql, .dbml, .mermaid, .typeScript, .document]

/-- The name of a format. -/
def name : OutputFormat → String
  | .sql => "sql"
  | .dbml => "dbml"
  | .mermaid => "mermaid"
  | .typeScript => "typescript"
  | .document => "json"

/-- The format with a name. -/
def ofName? (s : String) : Option OutputFormat := all.find? fun f => f.name == s

end OutputFormat

/-- Why a text gives no diagram at all. -/
inductive ImportError where
  | json (e : Json.ReadError)
  | invalid (v : Violation)
  | noGrid (e : GridError)
  deriving DecidableEq, Repr

/-- Reads a text that holds a diagram document. -/
def Diagram.read (text : String) : Except ImportError Diagram :=
  match Json.read text with
  | .error e => .error (.json e)
  | .ok v => (Diagram.load v).mapError .invalid

/-- The draft of a text in a format that is drawn on a sheet; none for a diagram document. -/
def InputFormat.draft? (dialect : Dialect) (text : String) : InputFormat → Option Draft
  | .sql => some (Sql.draft dialect text)
  | .dbml => some (Dbml.draft text)
  | .jsonSchema => some (JsonSchema.draft text)
  | .document => none

/-- Reads a text in a format. -/
def InputFormat.read (sheet : Outline.Sheet) (dialect : Dialect) (text : String) (f : InputFormat) :
    Except ImportError Reading :=
  match f.draft? dialect text with
  | some d => (d.reading sheet).mapError .noGrid
  | none => (Diagram.read text).map fun d => ⟨d, []⟩

/-- What reading a text runs into; only JSON has limits. -/
def InputFormat.overrun? (l : Json.Limits) (text : String) : InputFormat → Option Json.Overrun
  | .sql => none
  | .dbml => none
  | .jsonSchema => JsonSchema.overrun? l text
  | .document => Json.overrun? l text

/-- What reading a text reports. -/
def InputFormat.events (sheet : Outline.Sheet) (dialect : Dialect) (text : String) (f : InputFormat) :
    List Event :=
  match f.draft? dialect text with
  | some d => d.events sheet
  | none => []

/-- The text of a diagram in a format. -/
def OutputFormat.write (o : Sql.TableOptions) (dialect : Dialect) (d : Diagram) : OutputFormat → String
  | .sql => Sql.write o dialect d
  | .dbml => Dbml.write d
  | .mermaid => Mermaid.write d
  | .typeScript => TypeScript.write d
  | .document => d.toJson.print

/-- A number is written whole unless it has more digits than are allowed. -/
def Json.isWritable (digits : Option Nat) : Json → Bool
  | .int n => digits.all fun k => n.natAbs < Nat.pow 10 k
  | _ => true

/-- A diagram can be written in a format: the numbers of its positions are part of a document. -/
def OutputFormat.canWrite (digits : Option Nat) (d : Diagram) : OutputFormat → Bool
  | .document => d.tables.all fun t => t.position.x.isWritable digits && t.position.y.isWritable digits
  | _ => true

/-- What writing a diagram reports. -/
def OutputFormat.events (dialect : Dialect) (d : Diagram) : OutputFormat → List Event
  | .sql => Sql.writeEvents dialect d
  | _ => []

end Erd
