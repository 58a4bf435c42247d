import Erd.Reading
import Erd.Sql.Script
import Erd.Sql.TableDefinition

/-!
# Reading SQL

A script gives the tables that its statements define, and a link for each foreign key whose two ends are
there. A statement that gives no table becomes a diagnostic with its line and disturbs no other statement;
a foreign key that leads nowhere is only reported in the journal.

The referenced column is the source of a link and the referencing one its target. The link is one to one
if the referencing column is unique and one to many otherwise.
-/
namespace Erd.Sql

/-- A statement's line, and the table it defines or why it gives none. -/
structure Outcome where
  line : Nat
  result : Except StatementFault TableDefinition

/-- What the statements of a script come to, in order. -/
def outcomes (script : List Char) : List Outcome :=
  (statements script).map fun s => ⟨s.line, TableDefinition.read s.text⟩

/-- The table of an outcome. -/
def Outcome.table? (o : Outcome) : Option TableDefinition :=
  match o.result with
  | .ok t => some t
  | .error _ => none

/-- The diagnostic of an outcome. -/
def Outcome.diagnostic? (dialect : Dialect) (o : Outcome) : Option Diagnostic :=
  match o.result with
  | .ok _ => none
  | .error fault => some ⟨o.line, fault.message dialect o.line⟩

/-- What an outcome reports. -/
def Outcome.events (o : Outcome) : List Event :=
  match o.result with
  | .ok t => t.events o.line
  | .error _ => []

/-! ## Links -/

/-- The link of a foreign key of the table `owner`, which has the index `i` among the tables; or the report
that it leads nowhere. -/
def link (tables : List Outline.Table) (i : Nat) (owner : Outline.Table) (r : Reference) :
    Except Event Outline.Link :=
  match Outline.tableNamed? tables r.table with
  | none => .error (.keyWithoutTable owner.name r.column r.table)
  | some (k, referenced) =>
    match referenced.columnNamed? r.referenced, owner.columnNamed? r.column with
    | some parent, some child =>
      let isUnique := (owner.columns[child]?).any fun c => c.constraints.isUnique
      .ok ⟨if isUnique then .oneToOne else .oneToMany, ⟨k, parent⟩, ⟨i, child⟩⟩
    | _, _ => .error (.keyWithoutColumn owner.name r.column r.table r.referenced)

/-- The links and reports of all foreign keys, in the order of the tables and of their definitions. -/
def links (tables : List TableDefinition) : List (Except Event Outline.Link) :=
  let outlines := tables.map TableDefinition.outline
  (tables.mapIdx fun i t => t.references.map (link outlines i t.outline)).flatten

/-- The link of a foreign key that leads somewhere. -/
def linked? : Except Event Outline.Link → Option Outline.Link
  | .ok l => some l
  | .error _ => none

/-- The report of one that does not. -/
def dropped? : Except Event Outline.Link → Option Event
  | .ok _ => none
  | .error e => some e

/-- The columns of the table with the index `i`, those with a link marked as foreign keys. -/
def markLinked (links : List Outline.Link) (i : Nat) (t : Outline.Table) : Outline.Table :=
  { t with columns := t.columns.mapIdx fun j c =>
      if links.any fun l => l.target == ⟨i, j⟩ then markForeignKey c else c }

/-- The outline of tables with their foreign keys linked. -/
def outline (tables : List TableDefinition) : Outline :=
  let found := (links tables).filterMap linked?
  { tables := (tables.map TableDefinition.outline).mapIdx (markLinked found), links := found }

/-! ## The whole -/

/-- The draft of a script that is not blank. -/
def draftOf (dialect : Dialect) (script : List Char) : Draft :=
  let os := outcomes script
  let tables := os.filterMap Outcome.table?
  let diagnostics := os.filterMap (Outcome.diagnostic? dialect)
  let drawn := outline tables
  { outline := drawn
    diagnostics := diagnostics
    eventsBefore := os.flatMap Outcome.events
    eventsAfter := (links tables).filterMap dropped? ++
      [.sqlRead dialect drawn.tables.length drawn.links.length diagnostics.length] }

/-- The draft of a script. A blank one gives nothing, not even a report. -/
def draft (dialect : Dialect) (script : String) : Draft :=
  if Text.isBlankText script.toList then {} else draftOf dialect script.toList

/-- Reads a script. -/
def read (sheet : Outline.Sheet) (dialect : Dialect) (script : String) : Except GridError Reading :=
  (draft dialect script).reading sheet

end Erd.Sql
