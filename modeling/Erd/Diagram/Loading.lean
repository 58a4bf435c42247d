import Erd.Diagram.Document

/-!
# Loading untrusted documents

An untrusted document is read strictly: first its shape, depth first and in the order of the fields, then
the ends of its relationships. The first violation is reported, with the path to it.

An end is sound when its table is the last one with that id and has the column. Whether ids repeat is not
looked at.
-/
namespace Erd

/-- One part of a path into a document. -/
inductive PathPart where
  | key (name : String)
  | index (n : Nat)
  deriving DecidableEq, Repr

/-- The text of a path part. -/
def PathPart.text : PathPart → String
  | .key name => name
  | .index n => toString n

/-- The objects that a document is made of. -/
inductive DocumentPart where
  | table
  | position
  | column
  | relationship
  deriving DecidableEq, Repr

/-- The name of a part in messages. -/
def DocumentPart.label : DocumentPart → String
  | .table => "_TablePayload"
  | .position => "_PositionPayload"
  | .column => "_ColumnPayload"
  | .relationship => "_RelationshipPayload"

/-- What should have stood at a path. -/
inductive Expected where
  | present
  | list
  | string
  | object
  | part (p : DocumentPart)
  | number
  | columnType
  | cardinality
  deriving DecidableEq, Repr

/-- Names between single quotes with commas between them and the word or before the last. -/
def alternatives (names : List String) : String :=
  let quoted := names.map fun n => "'" ++ n ++ "'"
  match quoted.reverse with
  | [] => ""
  | [one] => one
  | last :: before => ", ".intercalate before.reverse ++ " or " ++ last

/-- The wording of an expectation. -/
def Expected.text : Expected → String
  | .present => "Field required"
  | .list => "Input should be a valid list"
  | .string => "Input should be a valid string"
  | .object => "Input should be a valid dictionary"
  | .part p => "Input should be a valid dictionary or instance of " ++ p.label
  | .number => "Input should be a valid integer"
  | .columnType => "Input should be " ++ alternatives (ColumnType.all.map ColumnType.name)
  | .cardinality => "Input should be " ++ alternatives (Cardinality.all.map Cardinality.tag)

/-- An end of a relationship. -/
inductive Side where
  | source
  | target
  deriving DecidableEq, Repr

/-- The name of a side. -/
def Side.name : Side → String
  | .source => "source"
  | .target => "target"

/-- What is wrong with a document. -/
inductive Violation where
  | notAnObject
  | shape (path : List PathPart) (expected : Expected)
  | unknownTable (relationship : String) (side : Side) (table : String)
  | unknownColumn (relationship : String) (side : Side) (column : String)
  deriving DecidableEq, Repr

/-- The wording of a violation. -/
def Violation.message : Violation → String
  | .notAnObject => "Diagram must be a JSON object"
  | .shape path expected => ".".intercalate (path.map PathPart.text) ++ ": " ++ expected.text
  | .unknownTable r side t => "Relationship '" ++ r ++ "': unknown " ++ side.name ++ " table '" ++ t ++ "'"
  | .unknownColumn r side c => "Relationship '" ++ r ++ "': unknown " ++ side.name ++ " column '" ++ c ++ "'"

namespace Loading

/-- A strict reader of the value at a path. -/
abbrev Reader (α : Type) := List PathPart → Json → Except Violation α

/-- A string. -/
def text : Reader String
  | _, .str s => .ok s
  | path, _ => .error (.shape path .string)

/-- A number, whole or not; truth values are none. -/
def number : Reader Json
  | _, .int n => .ok (.int n)
  | _, .float x => .ok (.float x)
  | path, _ => .error (.shape (path ++ [.key "int"]) .number)

/-- The name of a column type. -/
def columnType : Reader ColumnType
  | path, .str s =>
    match ColumnType.ofName? s with
    | some t => .ok t
    | none => .error (.shape path .columnType)
  | path, _ => .error (.shape path .columnType)

/-- The tag of a cardinality. -/
def cardinality : Reader Cardinality
  | path, .str s =>
    match Cardinality.ofTag? s with
    | some c => .ok c
    | none => .error (.shape path .cardinality)
  | path, _ => .error (.shape path .cardinality)

/-- An object of any fields. -/
def object : Reader (List (String × Json))
  | _, .obj fs => .ok fs
  | path, _ => .error (.shape path .object)

/-- The fields of an object that is a part of a document. -/
def partFields (p : DocumentPart) : Reader (List (String × Json))
  | _, .obj fs => .ok fs
  | path, _ => .error (.shape path (.part p))

/-- The value under a key, read by `r`. -/
def field {α : Type} (r : Reader α) (key : String) (path : List PathPart)
    (fs : List (String × Json)) : Except Violation α :=
  match Json.get? key fs with
  | some v => r (path ++ [.key key]) v
  | none => .error (.shape (path ++ [.key key]) .present)

/-- The items of an array from the `i`-th on, each read by `r`. -/
def itemsFrom {α : Type} (r : Reader α) (path : List PathPart) :
    Nat → List Json → Except Violation (List α)
  | _, [] => .ok []
  | i, v :: vs =>
    match r (path ++ [.index i]) v with
    | .error e => .error e
    | .ok a =>
      match itemsFrom r path (i + 1) vs with
      | .error e => .error e
      | .ok as => .ok (a :: as)

/-- An array, each item read by `r`. -/
def list {α : Type} (r : Reader α) : Reader (List α)
  | path, .arr vs => itemsFrom r path 0 vs
  | path, _ => .error (.shape path .list)

/-- A position: two numbers. -/
def position : Reader Position := fun path v => do
  let fs ← partFields .position path v
  let x ← field number "x" path fs
  let y ← field number "y" path fs
  return { x, y }

/-- A column. -/
def column : Reader Column := fun path v => do
  let fs ← partFields .column path v
  let id ← field text "id" path fs
  let name ← field text "name" path fs
  let type ← field columnType "type" path fs
  let flags ← field object "constraints" path fs
  return { id, name, type, constraints := .ofFields flags }

/-- A table. -/
def table : Reader Table := fun path v => do
  let fs ← partFields .table path v
  let id ← field text "id" path fs
  let name ← field text "name" path fs
  let position ← field position "position" path fs
  let columns ← field (list column) "columns" path fs
  return { id, name, position, columns }

/-- A relationship. -/
def relationship : Reader Relationship := fun path v => do
  let fs ← partFields .relationship path v
  let id ← field text "id" path fs
  let cardinality ← field cardinality "relationType" path fs
  let sourceTable ← field text "sourceTableId" path fs
  let sourceColumn ← field text "sourceColumnId" path fs
  let targetTable ← field text "targetTableId" path fs
  let targetColumn ← field text "targetColumnId" path fs
  return { id, cardinality, source := ⟨sourceTable, sourceColumn⟩, target := ⟨targetTable, targetColumn⟩ }

/-- A diagram, its shape only. -/
def diagram (v : Json) : Except Violation Diagram :=
  match v with
  | .obj fs => do
    let tables ← field (list table) "tables" [] fs
    let relationships ← field (list relationship) "relationships" [] fs
    return { tables, relationships }
  | _ => .error .notAnObject

end Loading

namespace Diagram

/-- What is wrong with an end of a relationship. -/
def endFault? (d : Diagram) (r : Relationship) (side : Side) (e : Endpoint) : Option Violation :=
  match d.lastTable? e.table with
  | none => some (.unknownTable r.id side e.table)
  | some t =>
    if t.columns.any fun c => c.id == e.column then none else some (.unknownColumn r.id side e.column)

/-- What is wrong with a relationship: its source end is looked at first. -/
def relationshipFault? (d : Diagram) (r : Relationship) : Option Violation :=
  match d.endFault? r .source r.source with
  | some fault => some fault
  | none => d.endFault? r .target r.target

/-- What is wrong with the first faulty relationship. -/
def danglingFault? (d : Diagram) : Option Violation := d.relationships.findSome? d.relationshipFault?

/-- Reads an untrusted document. -/
def load (v : Json) : Except Violation Diagram :=
  match Loading.diagram v with
  | .error fault => .error fault
  | .ok d =>
    match d.danglingFault? with
    | some fault => .error fault
    | none => .ok d

/-- The first violation of an untrusted document, if it has one. -/
def firstViolation? (v : Json) : Option Violation :=
  match load v with
  | .error fault => some fault
  | .ok _ => none

end Diagram

end Erd
