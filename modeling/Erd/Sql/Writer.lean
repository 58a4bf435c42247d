import Erd.Journal
import Erd.Sql.Command
import Erd.Sql.TableOrder
import Erd.Sql.TypeName

/-!
# Writing SQL

A script creates the tables in the order of their dependencies, then a link table for each relationship
between many and many, then adds the foreign keys of the other relationships. SQLite cannot add a key to a
table that is there, so there the keys stand in the bodies of the referring tables.

A relationship that does not resolve has no key and no link table.
-/
namespace Erd.Sql

/-! ## Columns -/

/-- The column is a counting primary key. -/
def isSerialKey (c : Column) : Bool := c.type == .serial && c.constraints.isPrimaryKey

/-- The type and the settings of a column. -/
def columnWords (d : Dialect) (c : Column) : List String :=
  if isSerialKey c && d == .sqlite then ["INTEGER PRIMARY KEY AUTOINCREMENT"]
  else if isSerialKey c && d == .mysql then [typeName d c.type, "NOT NULL AUTO_INCREMENT"]
  else
    let k := c.constraints
    typeName d c.type ::
      ((if k.isPrimaryKey && d == .postgresql then ["PRIMARY KEY"] else []) ++
        (if !k.isNullable && !k.isPrimaryKey then ["NOT NULL"] else []) ++
        (if k.isUnique && !k.isPrimaryKey then ["UNIQUE"] else []))

/-- The column is listed in a primary key line after the columns. -/
def inKeyLine (d : Dialect) (c : Column) : Bool :=
  match d with
  | .postgresql => false
  | .mysql => c.constraints.isPrimaryKey
  | .sqlite => c.constraints.isPrimaryKey && !isSerialKey c

/-- The primary key line, if a column is listed in it. -/
def keyLine (d : Dialect) (columns : List Column) : List BodyLine :=
  match (columns.filter (inKeyLine d)).map Column.name with
  | [] => []
  | names => [.primaryKey names]

/-! ## Tables -/

/-- The command that creates a table, with further lines at the end of its body. -/
def createTable (d : Dialect) (t : Table) (extra : List BodyLine) : Command :=
  .createTable t.name
    (t.columns.map (fun c => .column c.name (columnWords d c)) ++ keyLine d t.columns ++ extra)

/-- The foreign key of a relationship between other than many and many: the target refers to the source. -/
def keyClause (p : Resolved) : KeyClause := ⟨p.targetColumn.name, p.sourceTable.name, p.sourceColumn.name⟩

/-- The resolved relationships that are written as a foreign key, in order. -/
def keyed (d : Diagram) : List Resolved :=
  (d.relationships.filter fun r => r.cardinality != .manyToMany).filterMap d.resolve

/-- The resolved relationships that are written as a link table, in order. -/
def linking (d : Diagram) : List Resolved :=
  (d.relationships.filter fun r => r.cardinality == .manyToMany).filterMap d.resolve

/-- The foreign keys that a table owns. -/
def ownedKeys (d : Diagram) (t : Table) : List KeyClause :=
  ((keyed d).filter fun p => p.relationship.target.table == t.id).map keyClause

/-- The type of a column that refers to another: never one that counts up. -/
def referringType (d : Dialect) (c : Column) : String :=
  typeName d (if c.type = .serial then .int else c.type)

/-- The link table of a relationship between many and many. -/
def linkTable (d : Dialect) (p : Resolved) : Command :=
  let source := p.sourceTable.name ++ "_id"
  let target := p.targetTable.name ++ "_id"
  .createTable (p.sourceTable.name ++ "_" ++ p.targetTable.name)
    [.column source [referringType d p.sourceColumn, "NOT NULL"],
      .column target [referringType d p.targetColumn, "NOT NULL"],
      .primaryKey [source, target],
      .foreignKey ⟨source, p.sourceTable.name, p.sourceColumn.name⟩,
      .foreignKey ⟨target, p.targetTable.name, p.targetColumn.name⟩]

/-- The commands that add foreign keys after the tables; none in SQLite. -/
def addKeys (d : Dialect) (g : Diagram) : List Command :=
  if d = .sqlite then [] else (keyed g).map fun p => .addForeignKey p.targetTable.name (keyClause p)

/-! ## Scripts -/

/-- The commands of a diagram; none without tables. -/
def commands (d : Dialect) (g : Diagram) : List Command :=
  if g.tables.isEmpty then []
  else
    (tableOrder g.tables g.relationships).map (fun t =>
        createTable d t (if d = .sqlite then (ownedKeys g t).map .foreignKey else [])) ++
      (linking g).map (linkTable d) ++ addKeys d g

/-- Commands as text, with a blank line between them. -/
def text (o : TableOptions) (d : Dialect) (cs : List Command) : String :=
  "\n\n".intercalate (cs.map (Command.text o d))

/-- The script of a diagram. -/
def write (o : TableOptions) (d : Dialect) (g : Diagram) : String := text o d (commands d g)

/-! ## Reports -/

/-- What ordering the tables reports. -/
def orderEvents (tables : List Table) (relationships : List Relationship) : List Event :=
  match circularTables tables relationships with
  | [] => []
  | ts => [.dependencyCycle (ts.map Table.name)]

/-- What adding the foreign keys reports. -/
def keyEvents (d : Dialect) (g : Diagram) : List Event :=
  if d = .sqlite then []
  else g.relationships.filterMap fun r =>
    if r.cardinality ≠ .manyToMany && (g.resolve r).isNone then some (.foreignKeySkipped r.id) else none

/-- What writing a script reports. -/
def writeEvents (d : Dialect) (g : Diagram) : List Event :=
  if g.tables.isEmpty then []
  else
    orderEvents g.tables g.relationships ++
      (g.relationships.filterMap fun r =>
        if r.cardinality = .manyToMany && (g.resolve r).isNone then some (.linkTableSkipped r.id)
        else none) ++
      keyEvents d g ++ [.sqlWritten d g.tables.length]

end Erd.Sql
