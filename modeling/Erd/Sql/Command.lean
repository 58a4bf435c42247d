import Erd.Dialect

/-!
# Commands of a written script

The commands that a script is made of, before they are text: tables with the lines of their bodies, and
foreign keys that are added to a table afterwards.
-/
namespace Erd.Sql

/-- A foreign key clause: a column, and the table and column that it refers to. -/
structure KeyClause where
  column : String
  table : String
  referenced : String
  deriving DecidableEq, Repr

/-- The text of a foreign key clause. -/
def KeyClause.text (k : KeyClause) : String :=
  "FOREIGN KEY (" ++ k.column ++ ") REFERENCES " ++ k.table ++ "(" ++ k.referenced ++ ")"

/-- A line in the body of a table. -/
inductive BodyLine where
  /-- A column: its name, and its type and settings in words. -/
  | column (name : String) (words : List String)
  | primaryKey (columns : List String)
  | foreignKey (k : KeyClause)
  /-- A clause that is given as text. -/
  | clause (text : String)
  deriving DecidableEq, Repr

/-- The text of a line. -/
def BodyLine.text : BodyLine → String
  | .column name words => "  " ++ " ".intercalate (name :: words)
  | .primaryKey columns => "  PRIMARY KEY (" ++ ", ".intercalate columns ++ ")"
  | .foreignKey k => "  " ++ k.text
  | .clause text => "  " ++ text

/-- A command of a script. -/
inductive Command where
  | createTable (name : String) (lines : List BodyLine)
  | addForeignKey (table : String) (k : KeyClause)
  deriving DecidableEq, Repr

/-- What MySQL is told about the storage of a table. -/
structure TableOptions where
  engine : String := "InnoDB"
  charset : String := "utf8mb4"
  deriving DecidableEq, Repr

/-- What closes a table's body in a dialect. -/
def TableOptions.closing (o : TableOptions) : Dialect → String
  | .mysql => ") ENGINE=" ++ o.engine ++ " DEFAULT CHARSET=" ++ o.charset ++ ";"
  | _ => ");"

/-- The text of a command. -/
def Command.text (o : TableOptions) (d : Dialect) : Command → String
  | .createTable name [] => "CREATE TABLE " ++ name ++ " (\n" ++ o.closing d
  | .createTable name (line :: lines) =>
    "CREATE TABLE " ++ name ++ " (\n" ++ ",\n".intercalate ((line :: lines).map BodyLine.text) ++ "\n" ++
      o.closing d
  | .addForeignKey table k =>
    "ALTER TABLE " ++ table ++ " ADD CONSTRAINT fk_" ++ table ++ "_" ++ k.column ++ "\n  " ++ k.text ++ ";"

/-- The foreign key clauses of a command, each with the table that it belongs to. -/
def Command.keys : Command → List (String × KeyClause)
  | .createTable name lines =>
    lines.filterMap fun
      | .foreignKey k => some (name, k)
      | _ => none
  | .addForeignKey table k => [(table, k)]

/-- The table that a command creates. -/
def Command.created? : Command → Option String
  | .createTable name _ => some name
  | .addForeignKey .. => none

/-- The names of the columns that a command declares. -/
def Command.columnNames : Command → List String
  | .createTable _ lines =>
    lines.filterMap fun
      | .column name _ => some name
      | _ => none
  | .addForeignKey .. => []

end Erd.Sql
