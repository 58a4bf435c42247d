import Erd.Json.Reader
import Erd.Reading

/-!
# Reading JSON Schema

The definitions of a schema give tables and their properties columns. A property that points at another
definition with `$ref` is a foreign key, and its link comes from that definition's primary key, or its
first column if it has none. A property named `id` is the primary key, and a property can be null unless
it is required.

A definition that is not understood becomes a diagnostic about the schema as a whole; a property that is
no object is passed over. Where a text runs into a limit there is no draft, and no diagnostic either.
-/
namespace Erd.JsonSchema

/-- Why a definition gives no table. -/
inductive DefinitionFault where
  | notAnObject
  | badProperties
  | badRequired
  deriving DecidableEq, Repr

/-- The wording of the fault of a definition. -/
def DefinitionFault.message (definition : String) (f : DefinitionFault) : String :=
  "Skipped definition \"" ++ definition ++ "\": " ++
    match f with
    | .notAnObject => "not a valid object"
    | .badProperties => "\"properties\" must be an object"
    | .badRequired => "\"required\" must be a list of names"

/-- A definition that is understood: its properties and the names of those that are required. -/
structure Definition where
  name : String
  properties : List (String × Json)
  required : List String

/-! ## Pointers -/

/-- The definition that a pointer names: what follows the way to the definitions, up to the end of the
line. -/
def definitionName? (pointer : List Char) : Option (List Char) :=
  let rest := (Json.word? "#/definitions/".toList pointer).or (Json.word? "#/$defs/".toList pointer)
  match rest.map (List.takeWhile (· ≠ '\n')) with
  | some (c :: name) => some (c :: name)
  | _ => none

/-! ## Definitions -/

/-- The value under a key, unless it is missing or empty. -/
def filled? (key : String) (fs : List (String × Json)) : Option Json :=
  (Json.get? key fs).filter Json.isTruthy

/-- The names in a list of strings. -/
def names? : List Json → Option (List String)
  | [] => some []
  | .str s :: vs => (names? vs).map (s :: ·)
  | _ :: _ => none

/-- Reads a definition. -/
def Definition.read (name : String) (v : Json) : Except DefinitionFault Definition :=
  match v with
  | .obj fs =>
    match (filled? "properties" fs).getD (.obj []) with
    | .obj properties =>
      match (filled? "required" fs).getD (.arr []) with
      | .arr vs =>
        match names? vs with
        | some required => .ok ⟨name, properties, required⟩
        | none => .error .badRequired
      | _ => .error .badRequired
    | _ => .error .badProperties
  | _ => .error .notAnObject

/-- The fields of the definitions in a schema, if there are any. -/
def definitionFields? : Json → Option (List (String × Json))
  | .obj fs =>
    match (Json.get? "definitions" fs).or (Json.get? "$defs" fs) with
    | some (.obj definitions) => some definitions
    | _ => none
  | _ => none

/-! ## Columns -/

/-- The column type of a property's `type`. -/
def columnTypeNamed : String → ColumnType
  | "array" => .json
  | "boolean" => .boolean
  | "integer" => .int
  | "number" => .float
  | "object" => .json
  | "string" => .varchar
  | _ => .text

/-- The column type of a property. -/
def columnType (fs : List (String × Json)) : ColumnType :=
  if (Json.get? "$ref" fs).isSome then .int
  else match Json.get? "type" fs with
    | some (.str name) => columnTypeNamed name
    | _ => .text

/-- The column of a property that is an object. -/
def column (required : List String) (name : String) (fs : List (String × Json)) : Outline.Column :=
  let isKey := name == "id"
  { name := name
    type := columnType fs
    constraints :=
      { isPrimaryKey := isKey
        isNullable := !isKey && !required.contains name
        isUnique := isKey
        isForeignKey := (Json.get? "$ref" fs).isSome } }

/-- The properties that are objects. -/
def Definition.objects (d : Definition) : List (String × List (String × Json)) :=
  d.properties.filterMap fun (name, v) =>
    match v with
    | .obj fs => some (name, fs)
    | _ => none

/-- The table of a definition. -/
def Definition.outline (d : Definition) : Outline.Table :=
  ⟨d.name, d.objects.map fun (name, fs) => column d.required name fs⟩

/-! ## Links -/

/-- The properties that point somewhere, with their pointers. -/
def Definition.pointers (d : Definition) : List (String × String) :=
  d.objects.filterMap fun (name, fs) =>
    match Json.get? "$ref" fs with
    | some (.str pointer) => some (name, pointer)
    | _ => none

/-- The column that stands for a table: its primary key, or else its first one. -/
def keyColumn? (t : Outline.Table) : Option Nat :=
  match t.columns with
  | [] => none
  | _ => some ((t.columns.findIdx? fun c => c.constraints.isPrimaryKey).getD 0)

/-- The place that a pointer leads to. -/
def pointed? (tables : List Outline.Table) (pointer : String) : Option Outline.Place :=
  match definitionName? pointer.toList with
  | none => none
  | some name =>
    match tables.findIdx? fun t => t.name == String.ofList name with
    | none => none
    | some i => (tables[i]?.bind keyColumn?).map fun j => ⟨i, j⟩

/-- The links and reports of the table with the index `i`. -/
def tableLinks (tables : List Outline.Table) (i : Nat) (d : Definition) :
    List (Except Event Outline.Link) :=
  d.pointers.filterMap fun (property, pointer) =>
    match pointed? tables pointer with
    | none => some (.error (.pointerDropped d.name property pointer))
    | some source =>
      (d.outline.columnNamed? property).map fun j => .ok ⟨.oneToMany, source, ⟨i, j⟩⟩

/-! ## The whole -/

/-- The draft of definitions. -/
def draftOfDefinitions (fields : List (String × Json)) : Draft :=
  let read := fields.map fun (name, v) => (name, Definition.read name v)
  let definitions := read.filterMap fun (_, d) => d.toOption
  let diagnostics := read.filterMap fun (name, d) =>
    match d with
    | .error f => some ⟨0, f.message name⟩
    | .ok _ => none
  let tables := definitions.map Definition.outline
  let found := (definitions.mapIdx (tableLinks tables)).flatten
  let links := found.filterMap Except.toOption
  let dropped := found.filterMap fun
    | .error e => some e
    | .ok _ => none
  { outline := ⟨tables, links⟩
    diagnostics := diagnostics
    eventsAfter := dropped ++ [.jsonSchemaRead tables.length links.length diagnostics.length] }

/-- The draft of a schema. One without definitions gives nothing. -/
def draftOfJson (schema : Json) : Draft :=
  match definitionFields? schema with
  | some fields => draftOfDefinitions fields
  | none => {}

/-- The draft of a schema as text. A text that is no JSON gives one diagnostic, a blank one nothing. -/
def draft (text : String) : Draft :=
  if Text.isBlankText text.toList then {}
  else match Json.read text with
    | .ok schema => draftOfJson schema
    | .error e => { diagnostics := [⟨e.line, "Invalid JSON: " ++ e.fault.text⟩] }

/-- The draft of a schema that is given as a value; a string is read as text once more. -/
def draftOfValue : Json → Draft
  | .str text => draft text
  | v => draftOfJson v

/-- Why a schema gives nothing at all. -/
inductive ReadFailure where
  | overrun (o : Json.Overrun)
  | noGrid (e : GridError)
  deriving DecidableEq, Repr

/-- What reading a schema as text runs into. A blank text is not read as JSON. -/
def overrun? (l : Json.Limits) (text : String) : Option Json.Overrun :=
  if Text.isBlankText text.toList then none else Json.overrun? l text

/-- Reads a schema as text within limits. -/
def read (l : Json.Limits) (sheet : Outline.Sheet) (text : String) : Except ReadFailure Reading :=
  match overrun? l text with
  | some o => .error (.overrun o)
  | none => ((draft text).reading sheet).mapError .noGrid

end Erd.JsonSchema
