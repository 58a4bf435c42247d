import Erd.Dialect

/-!
# The journal

What the library reports while it works. An event says what happened in terms of the domain; its level,
its origin and its wording follow from that. Diagnostics about a text are not events: they are part of
what reading it gives.
-/
namespace Erd

/-- How serious an event is. -/
inductive Level where
  | debug
  | info
  | warning
  | error
  | critical
  deriving DecidableEq, Repr

namespace Level

/-- The level as a number that grows with the gravity. -/
def rank : Level → Nat
  | .debug => 10
  | .info => 20
  | .warning => 30
  | .error => 40
  | .critical => 50

/-- The name of a level. -/
def name : Level → String
  | .debug => "DEBUG"
  | .info => "INFO"
  | .warning => "WARNING"
  | .error => "ERROR"
  | .critical => "CRITICAL"

end Level

/-- The part of the library that an event comes from. -/
inductive Origin where
  | sqlReader
  | dbmlReader
  | jsonSchemaReader
  | sqlWriter
  | storage
  | command
  deriving DecidableEq, Repr

/-- The name of a part. -/
def Origin.name : Origin → String
  | .sqlReader => "sql.reader"
  | .dbmlReader => "dbml.reader"
  | .jsonSchemaReader => "json_schema.reader"
  | .sqlWriter => "sql.writer"
  | .storage => "storage"
  | .command => "command"

/-- Something that happened. -/
inductive Event where
  /-- A column of a SQL table counts up by itself. -/
  | autoIncrement (column rawType : String)
  /-- A SQL table was read. -/
  | tableRead (table : String) (columns line : Nat)
  /-- A foreign key names a table that is not there. -/
  | keyWithoutTable (table column referenced : String)
  /-- A foreign key names a column that is not there. -/
  | keyWithoutColumn (table column referenced referencedColumn : String)
  /-- A SQL text was read. -/
  | sqlRead (dialect : Dialect) (tables relationships errors : Nat)
  /-- A reference in the settings of a DBML column leads nowhere. -/
  | settingDropped (table column referenced referencedColumn : String)
  /-- A DBML text was read. -/
  | dbmlRead (tables relationships errors : Nat)
  /-- A reference of a JSON Schema property leads nowhere. -/
  | pointerDropped (definition property pointer : String)
  /-- A JSON Schema was read. -/
  | jsonSchemaRead (tables relationships errors : Nat)
  /-- Tables depend on one another in a circle, or on tables that do. -/
  | dependencyCycle (tables : List String)
  /-- A relationship between many and many does not resolve. -/
  | linkTableSkipped (relationship : String)
  /-- Another relationship does not resolve. -/
  | foreignKeySkipped (relationship : String)
  /-- A SQL text was written. -/
  | sqlWritten (dialect : Dialect) (tables : Nat)
  /-- An edge of the canvas names a handle that no column has. -/
  | edgeUnresolved (edge : String) (sourceHandle targetHandle : Option String)
  /-- A document was found not to be a valid diagram. -/
  | documentRejected (reason : String)
  /-- A diagnostic about an input. -/
  | diagnosed (input : String) (line : Nat) (message : String)
  /-- A file was written. -/
  | fileWritten (path : String)
  deriving DecidableEq, Repr

namespace Event

/-- How serious an event is. -/
def level : Event → Level
  | .sqlRead .. | .dbmlRead .. | .jsonSchemaRead .. | .sqlWritten .. | .fileWritten .. => .info
  | .edgeUnresolved .. | .diagnosed .. => .warning
  | _ => .debug

/-- Where an event comes from. -/
def origin : Event → Origin
  | .autoIncrement .. | .tableRead .. | .keyWithoutTable .. | .keyWithoutColumn .. | .sqlRead .. => .sqlReader
  | .settingDropped .. | .dbmlRead .. => .dbmlReader
  | .pointerDropped .. | .jsonSchemaRead .. => .jsonSchemaReader
  | .dependencyCycle .. | .linkTableSkipped .. | .foreignKeySkipped .. | .sqlWritten .. => .sqlWriter
  | .edgeUnresolved .. | .documentRejected .. => .storage
  | .diagnosed .. | .fileWritten .. => .command

/-- The counts at the end of a reader's summary. -/
def counts (tables relationships errors : Nat) : String :=
  toString tables ++ " table(s), " ++ toString relationships ++ " relationship(s), " ++
    toString errors ++ " error(s)."

/-- A handle, or the word for none. -/
def handleText : Option String → String
  | some handle => handle
  | none => "None"

/-- The wording of an event. -/
def message : Event → String
  | .autoIncrement column rawType => "Column '" ++ column ++ "' is auto-incrementing (" ++ rawType ++ ")"
  | .tableRead table columns line =>
    "Parsed table '" ++ table ++ "' (" ++ toString columns ++ " column(s)) at line " ++ toString line
  | .keyWithoutTable table column referenced =>
    "Dropping FK " ++ table ++ "." ++ column ++ " → unknown table '" ++ referenced ++ "'"
  | .keyWithoutColumn table column referenced referencedColumn =>
    "Dropping FK " ++ table ++ "." ++ column ++ " → " ++ referenced ++ "." ++ referencedColumn ++
      ": unknown column"
  | .sqlRead dialect tables relationships errors =>
    "Parsed SQL DDL (" ++ dialect.name ++ "): " ++ counts tables relationships errors
  | .settingDropped table column referenced referencedColumn =>
    "Dropping inline ref " ++ table ++ "." ++ column ++ " → " ++ referenced ++ "." ++ referencedColumn
  | .dbmlRead tables relationships errors => "Parsed DBML: " ++ counts tables relationships errors
  | .pointerDropped definition property pointer =>
    "Dropping $ref " ++ definition ++ "." ++ property ++ " → " ++ pointer
  | .jsonSchemaRead tables relationships errors =>
    "Parsed JSON Schema: " ++ counts tables relationships errors
  | .dependencyCycle tables =>
    "Dependency cycle among " ++ ", ".intercalate tables ++ "; keeping original order"
  | .linkTableSkipped relationship =>
    "Skipping N:M relationship '" ++ relationship ++ "': unresolved endpoint"
  | .foreignKeySkipped relationship => "Skipping relationship '" ++ relationship ++ "': unresolved endpoint"
  | .sqlWritten dialect tables =>
    "Generated " ++ dialect.name ++ " DDL for " ++ toString tables ++ " table(s)."
  | .edgeUnresolved edge sourceHandle targetHandle =>
    "Edge '" ++ edge ++ "' has an unresolvable handle (" ++ handleText sourceHandle ++ " → " ++
      handleText targetHandle ++ ")"
  | .documentRejected reason => "Diagram rejected: " ++ reason
  | .diagnosed input line text => input ++ ":" ++ toString line ++ ": " ++ text
  | .fileWritten path => "Wrote " ++ path

end Event

end Erd
