import Erd.Diagram.Basic

/-!
# Writing Mermaid

A diagram is written as an entity relationship diagram: an entity for each table, and a line for each
relationship between tables that are there.
-/
namespace Erd.Mermaid

open Text

/-- The text with an underscore for each run of blanks. -/
def joinBlanks : (afterBlank : Bool) → List Char → List Char
  | _, [] => []
  | afterBlank, c :: s =>
    if isBlank c then (if afterBlank then joinBlanks true s else '_' :: joinBlanks true s)
    else c :: joinBlanks false s

/-- The name of an entity: in capitals, without blanks. -/
def entityName (name : String) : String := String.ofList (upper (joinBlanks false name.toList))

/-- What marks a key column. -/
def marker (c : Constraints) : String :=
  if c.isPrimaryKey then " PK" else if c.isForeignKey then " FK" else ""

/-- The line of a column. -/
def columnLine (c : Column) : String := "    " ++ c.type.lowerName ++ " " ++ c.name ++ marker c.constraints

/-- The lines of an entity. -/
def entityLines (t : Table) : List String :=
  ("  " ++ entityName t.name ++ " \x7b") :: t.columns.map columnLine ++ ["  \x7d"]

/-- The connector of a cardinality. -/
def connector : Cardinality → String
  | .oneToOne => "||--||"
  | .oneToMany => "||--o\x7b"
  | .manyToMany => "\x7do--o\x7b"

/-- The line of a relationship, if both its tables are there. -/
def relationLine? (d : Diagram) (r : Relationship) : Option String :=
  (d.lastTable? r.source.table).bind fun source => (d.lastTable? r.target.table).map fun target =>
    "  " ++ entityName source.name ++ " " ++ connector r.cardinality ++ " " ++ entityName target.name ++
      " : \"has\""

/-- The text of a diagram; empty without tables. -/
def write (d : Diagram) : String :=
  if d.tables.isEmpty then ""
  else "\n".intercalate
    ("erDiagram" :: d.tables.flatMap entityLines ++ d.relationships.filterMap (relationLine? d))

end Erd.Mermaid
