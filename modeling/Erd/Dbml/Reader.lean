import Erd.Dbml.Document
import Erd.Reading

/-!
# Reading DBML

A document gives the tables of its blocks and a link for each reference whose two ends are there: first
the references on lines of their own, then those among the settings of columns. A reference on a line of
its own that leads nowhere is a fault; one among settings is only reported in the journal.
-/
namespace Erd.Dbml

/-- The block of an entry. -/
def Entry.block? : Entry → Option Block
  | .table b => some b
  | _ => none

/-- The reference of an entry, with its line. -/
def Entry.ref? : Entry → Option (Nat × Ref)
  | .ref line r => some (line, r)
  | _ => none

/-- The fault of an entry, with its line. -/
def Entry.fault? : Entry → Option (Nat × Fault)
  | .fault line f => some (line, f)
  | _ => none

/-- The table of a block. -/
def Block.outline (b : Block) : Outline.Table := ⟨b.name, b.columns.map ColumnLine.column⟩

/-! ## Links -/

/-- The place of a column in one of the tables. -/
def place? (tables : List Outline.Table) (c : ColumnName) : Option Outline.Place :=
  (Outline.tableNamed? tables c.table).bind fun (i, t) => (t.columnNamed? c.column).map fun j => ⟨i, j⟩

/-- A table with a name is there. -/
def hasTable (tables : List Outline.Table) (name : String) : Bool :=
  (Outline.tableNamed? tables name).isSome

/-- The link of a reference on a line of its own, or why it leads nowhere. -/
def refLink (tables : List Outline.Table) (r : Ref) : Except Fault Outline.Link :=
  if hasTable tables r.source.table && hasTable tables r.target.table then
    match place? tables r.source, place? tables r.target with
    | some source, some target => .ok ⟨r.cardinality, source, target⟩
    | _, _ => .error .unknownColumn
  else .error .unknownTable

/-- The link of the reference among the settings of the column at `here`, or the report that it leads
nowhere. -/
def settingLink (tables : List Outline.Table) (owner : String) (here : Outline.Place) (c : ColumnLine) :
    Option (Except Event Outline.Link) :=
  c.refersTo.map fun r =>
    match place? tables r with
    | some source => .ok ⟨.oneToMany, source, here⟩
    | none => .error (.settingDropped owner c.column.name r.table r.column)

/-- The links and reports of the references among the settings of a block with the index `i`. -/
def blockLinks (tables : List Outline.Table) (i : Nat) (b : Block) : List (Except Event Outline.Link) :=
  (b.columns.mapIdx fun j c => settingLink tables b.name ⟨i, j⟩ c).filterMap id

/-! ## The whole -/

/-- The draft of a document that is not blank. -/
def draftOf (s : List Char) : Draft :=
  let es := entries s
  let blocks := es.filterMap Entry.block?
  let tables := blocks.map Block.outline
  let refs := (es.filterMap Entry.ref?).map fun (line, r) => (line, refLink tables r)
  let settings := (blocks.mapIdx (blockLinks tables)).flatten
  let faults := es.filterMap Entry.fault? ++ refs.filterMap fun (line, l) =>
    match l with
    | .error f => some (line, f)
    | .ok _ => none
  let links := (refs.filterMap fun (_, l) => l.toOption) ++ settings.filterMap Except.toOption
  let dropped := settings.filterMap fun
    | .error e => some e
    | .ok _ => none
  { outline := ⟨tables, links⟩
    diagnostics := faults.map fun (line, f) => ⟨line, f.message⟩
    eventsAfter := dropped ++ [.dbmlRead tables.length links.length faults.length] }

/-- The draft of a document. A blank one gives nothing, not even a report. -/
def draft (document : String) : Draft :=
  if Text.isBlankText document.toList then {} else draftOf document.toList

/-- Reads a document. -/
def read (sheet : Outline.Sheet) (document : String) : Except GridError Reading :=
  (draft document).reading sheet

end Erd.Dbml
