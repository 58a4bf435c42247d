import Erd.Journal
import Erd.Sql.Body
import Erd.Sql.Definition

/-!
# Table definitions

A table definition starts with `CREATE TABLE`, names the table and holds its body in parentheses. Its
columns are those of the body, in order; the keys and unique constraints of the body set their flags.

What stands after the body, such as the options of a dialect, is not looked at.
-/
namespace Erd.Sql

open Text

/-- Why a statement gives no table. -/
inductive StatementFault where
  | unsupported
  | malformed
  deriving DecidableEq, Repr

/-- The wording of a fault of the statement on a line. -/
def StatementFault.message (dialect : Dialect) (line : Nat) : StatementFault → String
  | .unsupported => "[" ++ dialect.name ++ "] Unsupported statement near line " ++ toString line
  | .malformed =>
    "[" ++ dialect.name ++ "] Failed to parse CREATE TABLE statement near line " ++ toString line

/-- A table as it is defined. -/
structure TableDefinition where
  name : String
  definitions : List Definition
  deriving DecidableEq, Repr

/-! ## Reading -/

/-- The statement defines a table. -/
def definesTable (s : List Char) : Bool := (phrase ["create", "table"] s).any atWordEnd

/-- The name of the table and the text from the parenthesis of its body on. A schema may stand before the
name. -/
def tableHead? (s : List Char) : Option (List Char × List Char) :=
  match (phrase ["create", "table"] s).bind skipBlanks? with
  | none => none
  | some s =>
    let s := ((phrase ["if", "not", "exists"] s).bind skipBlanks?).getD s
    let named := match looseWord? s with
      | some (_, '.' :: rest) => looseWord? rest
      | other => other
    match named with
    | none => none
    | some (name, rest) =>
      match trimStart rest with
      | '(' :: body => some (name, '(' :: body)
      | _ => none

/-- The table that a statement defines. -/
def TableDefinition.read (s : List Char) : Except StatementFault TableDefinition :=
  if definesTable s then
    match (tableHead? s).bind fun (name, rest) => (body? rest).map fun body => (name, body) with
    | some (name, body) => .ok ⟨String.ofList name, (Sql.definitions body).map Definition.read⟩
    | none => .error .malformed
  else .error .unsupported

/-! ## Columns -/

/-- The column that a definition gives. -/
def Definition.column? : Definition → Option ColumnDefinition
  | .column c => some c
  | _ => none

/-- The foreign key that a definition gives, of the table or among the settings of a column. -/
def Definition.reference? : Definition → Option Reference
  | .column c => c.reference
  | .foreignKey r => some r
  | _ => none

/-- The columns that a definition makes the primary key. -/
def Definition.primaryKeyColumns : Definition → List String
  | .primaryKey columns => columns
  | _ => []

/-- The column that a definition makes unique on its own. -/
def Definition.uniqueColumn? : Definition → Option String
  | .unique [name] => some name
  | _ => none

/-- A column as an outline holds it. -/
def ColumnDefinition.outline (c : ColumnDefinition) : Outline.Column where
  name := c.name
  type := c.type
  constraints :=
    { isPrimaryKey := c.isPrimaryKey
      isNullable := !c.isNotNull
      isUnique := c.isUnique
      isForeignKey := c.reference.isSome }

/-- The column as part of the primary key: unique and never null. -/
def markPrimaryKey (c : Outline.Column) : Outline.Column :=
  { c with constraints :=
      { c.constraints with isPrimaryKey := true, isNullable := false, isUnique := true } }

/-- The column as unique. -/
def markUnique (c : Outline.Column) : Outline.Column :=
  { c with constraints := { c.constraints with isUnique := true } }

/-- The column as a foreign key. -/
def markForeignKey (c : Outline.Column) : Outline.Column :=
  { c with constraints := { c.constraints with isForeignKey := true } }

namespace TableDefinition

/-- The columns as their own definitions give them. -/
def ownColumns (t : TableDefinition) : List Outline.Column :=
  (t.definitions.filterMap Definition.column?).map ColumnDefinition.outline

/-- The columns with the flags that the table's keys and unique constraints add. -/
def columns (t : TableDefinition) : List Outline.Column :=
  let keyed := (t.definitions.flatMap Definition.primaryKeyColumns).foldl
    (fun cs name => Outline.changeNamed name markPrimaryKey cs) t.ownColumns
  (t.definitions.filterMap Definition.uniqueColumn?).foldl
    (fun cs name => Outline.changeNamed name markUnique cs) keyed

/-- The foreign keys, in the order of their definitions. -/
def references (t : TableDefinition) : List Reference := t.definitions.filterMap Definition.reference?

/-- The table as an outline holds it, before its foreign keys are linked. -/
def outline (t : TableDefinition) : Outline.Table := ⟨t.name, t.columns⟩

/-- What reading the table on a line reports. -/
def events (t : TableDefinition) (line : Nat) : List Event :=
  (t.definitions.filterMap Definition.column?).filterMap
      (fun c => if c.countsUp then some (.autoIncrement c.name c.spelling) else none) ++
    [.tableRead t.name t.columns.length line]

end TableDefinition

end Erd.Sql
