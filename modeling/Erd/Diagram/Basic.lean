import Erd.ColumnType
import Erd.Json.Basic
import Erd.Text.LetterCase

/-!
# Diagrams

A diagram is a list of tables with their columns and a list of relationships between columns. A
relationship names its two ends by id, and nothing in the type makes those ids exist: `resolve` looks them
up, and `Diagram.Intact` says that all of them do.

For a foreign key the source end is the referenced column and the target end the referencing one.

**Results.**
* `resolve_ends`: what a relationship resolves to has the ids that it names.
-/
namespace Erd

/-- How many rows of each side a relationship joins. -/
inductive Cardinality where
  | oneToOne
  | oneToMany
  | manyToMany
  deriving DecidableEq, Repr

namespace Cardinality

/-- Every cardinality, in the order in which messages list them. -/
def all : List Cardinality := [.oneToOne, .oneToMany, .manyToMany]

/-- The tag of a cardinality. -/
def tag : Cardinality → String
  | .oneToOne => "1:1"
  | .oneToMany => "1:N"
  | .manyToMany => "N:M"

/-- The cardinality with a tag. -/
def ofTag? (s : String) : Option Cardinality := all.find? fun c => c.tag == s

theorem ofTag?_tag (c : Cardinality) : ofTag? c.tag = some c := by cases c <;> rfl

end Cardinality

/-- The flags of a column, independent of one another. -/
structure Constraints where
  isPrimaryKey : Bool := false
  isNullable : Bool := true
  isUnique : Bool := false
  isForeignKey : Bool := false
  deriving DecidableEq, Repr

/-- A column. Its id is meant to be unique within its table. -/
structure Column where
  id : String
  name : String
  type : ColumnType
  constraints : Constraints := {}
  deriving DecidableEq, Repr

/-- Where a table is drawn. The coordinates are kept as they were given and are meant to be numbers. -/
structure Position where
  x : Json := .int 0
  y : Json := .int 0

/-- A table. Its id is meant to be unique within the diagram. -/
structure Table where
  id : String
  name : String
  position : Position := {}
  columns : List Column := []

/-- One end of a relationship: a table and a column of it, by id. -/
structure Endpoint where
  table : String
  column : String
  deriving DecidableEq, Repr

/-- A relationship between two columns. -/
structure Relationship where
  id : String
  cardinality : Cardinality
  source : Endpoint
  target : Endpoint
  deriving DecidableEq, Repr

/-- Tables and the relationships between their columns. -/
structure Diagram where
  tables : List Table := []
  relationships : List Relationship := []

/-! ## Looking up -/

/-- A name as names are compared: without regard to case. -/
def nameKey (name : String) : String := String.ofList (Text.lower name.toList)

namespace Table

/-- The first column with an id. -/
def column? (t : Table) (id : String) : Option Column := t.columns.find? fun c => c.id == id

/-- The first column with a name, case aside. -/
def columnNamed? (t : Table) (name : String) : Option Column :=
  t.columns.find? fun c => nameKey c.name == nameKey name

/-- The columns of the primary key. -/
def primaryKey (t : Table) : List Column := t.columns.filter fun c => c.constraints.isPrimaryKey

end Table

/-- A relationship with the tables and columns at its ends. -/
structure Resolved where
  relationship : Relationship
  sourceTable : Table
  sourceColumn : Column
  targetTable : Table
  targetColumn : Column

namespace Diagram

/-- The first table with an id. -/
def table? (d : Diagram) (id : String) : Option Table := d.tables.find? fun t => t.id == id

/-- The last table with an id. -/
def lastTable? (d : Diagram) (id : String) : Option Table := d.tables.reverse.find? fun t => t.id == id

/-- The table and the column at an end. -/
def endpoint? (d : Diagram) (e : Endpoint) : Option (Table × Column) :=
  (d.table? e.table).bind fun t => (t.column? e.column).map fun c => (t, c)

/-- The two ends of a relationship, if the tables and columns they name exist. -/
def resolve (d : Diagram) (r : Relationship) : Option Resolved :=
  (d.endpoint? r.source).bind fun s => (d.endpoint? r.target).map fun t => ⟨r, s.1, s.2, t.1, t.2⟩

/-- Every relationship resolves. -/
def Intact (d : Diagram) : Prop := ∀ r ∈ d.relationships, (d.resolve r).isSome

end Diagram

theorem Table.id_of_column? {t : Table} {id : String} {c : Column} (h : t.column? id = some c) :
    c.id = id := by
  have := List.find?_some h
  simpa using this

theorem Diagram.id_of_table? {d : Diagram} {id : String} {t : Table} (h : d.table? id = some t) :
    t.id = id := by
  have := List.find?_some h
  simpa using this

theorem Diagram.endpoint?_eq_some {d : Diagram} {e : Endpoint} {t : Table} {c : Column}
    (h : d.endpoint? e = some (t, c)) :
    d.table? e.table = some t ∧ t.column? e.column = some c := by
  obtain ⟨t', ht, h⟩ := Option.bind_eq_some_iff.1 h
  obtain ⟨c', hc, h⟩ := Option.map_eq_some_iff.1 h
  cases h
  exact ⟨ht, hc⟩

theorem Diagram.resolve_ends {d : Diagram} {r : Relationship} {p : Resolved}
    (h : d.resolve r = some p) :
    p.relationship = r ∧ p.sourceTable.id = r.source.table ∧ p.sourceColumn.id = r.source.column ∧
      p.targetTable.id = r.target.table ∧ p.targetColumn.id = r.target.column := by
  obtain ⟨s, hs, h⟩ := Option.bind_eq_some_iff.1 h
  obtain ⟨t, ht, h⟩ := Option.map_eq_some_iff.1 h
  cases h
  obtain ⟨h1, h2⟩ := endpoint?_eq_some hs
  obtain ⟨h3, h4⟩ := endpoint?_eq_some ht
  exact ⟨rfl, id_of_table? h1, Table.id_of_column? h2, id_of_table? h3, Table.id_of_column? h4⟩

end Erd
