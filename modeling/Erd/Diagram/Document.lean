import Erd.Diagram.Basic
import Erd.Text.Quoted

/-!
# Diagrams as JSON documents

The written form of a diagram and the reading of parts that are trusted to have that form. Of a trusted
part only missing keys and unknown type names are reported; `Erd.Diagram.Loading` reads untrusted
documents.

Flags may be any JSON value and count by their truth; all but ids, names, types and ends may be left out.
-/
namespace Erd

/-- Why a part of a document cannot be read. -/
inductive DocumentError where
  | missingKey (key : String)
  | unknownType (name : String)
  | unknownCardinality (tag : String)
  | wrongKind
  deriving DecidableEq, Repr

/-- The wording of an error. -/
def DocumentError.message : DocumentError → String
  | .missingKey key => Text.quoted key
  | .unknownType name => Text.quoted name ++ " is not a valid ColumnType"
  | .unknownCardinality tag => Text.quoted tag ++ " is not a valid RelationType"
  | .wrongKind => "a part has the wrong kind"

namespace Document

/-- The fields of an object. -/
def fields : Json → Except DocumentError (List (String × Json))
  | .obj fs => .ok fs
  | _ => .error .wrongKind

/-- The items of an array. -/
def items : Json → Except DocumentError (List Json)
  | .arr vs => .ok vs
  | _ => .error .wrongKind

/-- A string. -/
def text : Json → Except DocumentError String
  | .str s => .ok s
  | _ => .error .wrongKind

/-- The value under a key that must be there. -/
def required (key : String) (fs : List (String × Json)) : Except DocumentError Json :=
  match Json.get? key fs with
  | some v => .ok v
  | none => .error (.missingKey key)

/-- The string under a key that must be there. -/
def requiredText (key : String) (fs : List (String × Json)) : Except DocumentError String := do
  text (← required key fs)

/-- The fields of the object under a key, none if the key is missing. -/
def optionalFields (key : String) (fs : List (String × Json)) :
    Except DocumentError (List (String × Json)) :=
  match Json.get? key fs with
  | some v => fields v
  | none => .ok []

/-- The items of the array under a key, none if the key is missing. -/
def optionalItems (key : String) (fs : List (String × Json)) : Except DocumentError (List Json) :=
  match Json.get? key fs with
  | some v => items v
  | none => .ok []

/-- The truth of the value under a key, or a default. -/
def flag (key : String) (default : Bool) (fs : List (String × Json)) : Bool :=
  match Json.get? key fs with
  | some v => v.isTruthy
  | none => default

end Document

open Document

/-- The type with a name. -/
def ColumnType.named (name : String) : Except DocumentError ColumnType :=
  match ColumnType.ofName? name with
  | some t => .ok t
  | none => .error (.unknownType name)

/-- The cardinality with a tag. -/
def Cardinality.tagged (tag : String) : Except DocumentError Cardinality :=
  match Cardinality.ofTag? tag with
  | some c => .ok c
  | none => .error (.unknownCardinality tag)

/-! ## Reading -/

/-- The flags that the fields give. -/
def Constraints.ofFields (fs : List (String × Json)) : Constraints where
  isPrimaryKey := flag "isPrimaryKey" false fs
  isNullable := flag "isNullable" true fs
  isUnique := flag "isUnique" false fs
  isForeignKey := flag "isForeignKey" false fs

/-- The position that the fields give, the origin by default. -/
def Position.ofFields (fs : List (String × Json)) : Position where
  x := (Json.get? "x" fs).getD (.int 0)
  y := (Json.get? "y" fs).getD (.int 0)

/-- Reads a column. -/
def Column.ofJson (v : Json) : Except DocumentError Column := do
  let fs ← fields v
  let id ← requiredText "id" fs
  let name ← requiredText "name" fs
  let type ← ColumnType.named (← requiredText "type" fs)
  let flags ← optionalFields "constraints" fs
  return { id, name, type, constraints := .ofFields flags }

/-- Reads a table. -/
def Table.ofJson (v : Json) : Except DocumentError Table := do
  let fs ← fields v
  let place ← optionalFields "position" fs
  let id ← requiredText "id" fs
  let name ← requiredText "name" fs
  let columns ← (← optionalItems "columns" fs).mapM Column.ofJson
  return { id, name, position := .ofFields place, columns }

/-- Reads a relationship. -/
def Relationship.ofJson (v : Json) : Except DocumentError Relationship := do
  let fs ← fields v
  let id ← requiredText "id" fs
  let cardinality ← Cardinality.tagged (← requiredText "relationType" fs)
  let sourceTable ← requiredText "sourceTableId" fs
  let sourceColumn ← requiredText "sourceColumnId" fs
  let targetTable ← requiredText "targetTableId" fs
  let targetColumn ← requiredText "targetColumnId" fs
  return { id, cardinality, source := ⟨sourceTable, sourceColumn⟩, target := ⟨targetTable, targetColumn⟩ }

/-- Reads a diagram. -/
def Diagram.ofJson (v : Json) : Except DocumentError Diagram := do
  let fs ← fields v
  let tables ← (← optionalItems "tables" fs).mapM Table.ofJson
  let relationships ← (← optionalItems "relationships" fs).mapM Relationship.ofJson
  return { tables, relationships }

/-! ## Writing -/

/-- The written form of flags. -/
def Constraints.toJson (c : Constraints) : Json :=
  .obj [("isForeignKey", .bool c.isForeignKey), ("isNullable", .bool c.isNullable),
    ("isPrimaryKey", .bool c.isPrimaryKey), ("isUnique", .bool c.isUnique)]

/-- The written form of a column. -/
def Column.toJson (c : Column) : Json :=
  .obj [("constraints", c.constraints.toJson), ("id", .str c.id), ("name", .str c.name),
    ("type", .str c.type.name)]

/-- The written form of a position. -/
def Position.toJson (p : Position) : Json := .obj [("x", p.x), ("y", p.y)]

/-- The written form of a table. -/
def Table.toJson (t : Table) : Json :=
  .obj [("columns", .arr (t.columns.map Column.toJson)), ("id", .str t.id), ("name", .str t.name),
    ("position", t.position.toJson)]

/-- The written form of a relationship. -/
def Relationship.toJson (r : Relationship) : Json :=
  .obj [("id", .str r.id), ("relationType", .str r.cardinality.tag),
    ("sourceColumnId", .str r.source.column), ("sourceTableId", .str r.source.table),
    ("targetColumnId", .str r.target.column), ("targetTableId", .str r.target.table)]

/-- The written form of a diagram. -/
def Diagram.toJson (d : Diagram) : Json :=
  .obj [("relationships", .arr (d.relationships.map Relationship.toJson)),
    ("tables", .arr (d.tables.map Table.toJson))]

end Erd
