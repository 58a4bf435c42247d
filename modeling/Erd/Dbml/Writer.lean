import Erd.Dbml.TypeName
import Erd.Diagram.Basic

/-!
# Writing DBML

A diagram is written as a block for each table and a reference for each relationship that resolves, with
blank lines between them. A name that is not one word stands between double quotes.
-/
namespace Erd.Dbml

/-- A name as it is written. -/
def writtenName (name : String) : String :=
  if Text.isPlainWord name.toList then name else "\"" ++ name ++ "\""

/-- The sign of a cardinality. -/
def signText : Cardinality → String
  | .oneToOne => "-"
  | .oneToMany => "<"
  | .manyToMany => "<>"

/-- The settings of a column. -/
def settingTags (c : Constraints) : List String :=
  (if c.isPrimaryKey then ["pk"] else []) ++
    (if c.isUnique && !c.isPrimaryKey then ["unique"] else []) ++
    (if c.isNullable then ["null"] else if c.isPrimaryKey then [] else ["not null"])

/-- The settings in brackets, after a blank; nothing if there are none. -/
def settingsText (c : Constraints) : String :=
  match settingTags c with
  | [] => ""
  | tags => " [" ++ ", ".intercalate tags ++ "]"

/-- The line of a column. -/
def columnText (c : Column) : String :=
  "  " ++ writtenName c.name ++ " " ++ typeName c.type ++ settingsText c.constraints

/-- The block of a table. -/
def tableText (t : Table) : String :=
  "\n".intercalate
    (("Table " ++ writtenName t.name ++ " \x7b") :: t.columns.map columnText ++ ["\x7d"])

/-- A column with its table. -/
def endText (t : Table) (c : Column) : String := writtenName t.name ++ "." ++ writtenName c.name

/-- The line of a reference. -/
def refLineText (p : Resolved) : String :=
  "Ref: " ++ endText p.sourceTable p.sourceColumn ++ " " ++ signText p.relationship.cardinality ++ " " ++
    endText p.targetTable p.targetColumn

/-- The document of a diagram; empty without tables. -/
def write (d : Diagram) : String :=
  if d.tables.isEmpty then ""
  else "\n\n".intercalate
    (d.tables.map tableText ++ (d.relationships.filterMap d.resolve).map refLineText)

end Erd.Dbml
