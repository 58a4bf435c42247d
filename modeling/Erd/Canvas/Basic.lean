import Erd.Diagram.Document
import Erd.Journal

/-!
# The canvas

The canvas holds a diagram as nodes and edges. An edge can only name its ends by strings, so a column is
flattened to a handle made of the ids of its table and column. Ids may hold hyphens, so a handle is never
taken apart: it is compared with the handles of the node's columns.

An edge without a cardinality is no relationship.

**Results.**
* `handle_injective`: in one node and on one side, columns with different ids have different handles.
-/
namespace Erd.Canvas

/-- The side of a column on which an edge ends. -/
inductive HandleSide where
  | source
  | target
  deriving DecidableEq, Repr

/-- The name of a side in handles. -/
def HandleSide.name : HandleSide → String
  | .source => "source"
  | .target => "target"

/-- What the canvas can ask of a table node. -/
inductive Hook where
  | addColumn
  | columnChange
  | deleteColumn
  | deleteTable
  | tableNameChange
  deriving DecidableEq, Repr

/-- The name of a hook. -/
def Hook.name : Hook → String
  | .addColumn => "on_add_column"
  | .columnChange => "on_column_change"
  | .deleteColumn => "on_delete_column"
  | .deleteTable => "on_delete_table"
  | .tableNameChange => "on_table_name_change"

/-- Every hook, in the order of their names. -/
def Hook.all : List Hook := [.addColumn, .columnChange, .deleteColumn, .deleteTable, .tableNameChange]

/-- A table on the canvas. -/
structure Node where
  id : String
  tableName : String := ""
  position : Position := {}
  columns : List Column := []
  hooks : List Hook := []
  kind : String := "tableNode"

/-- A connection on the canvas. -/
structure Edge where
  id : String
  source : String
  target : String
  sourceHandle : Option String := none
  targetHandle : Option String := none
  cardinality : Option Cardinality := none
  kind : String := "relationship"
  deriving DecidableEq, Repr

/-- What is on the canvas. -/
structure Scene where
  nodes : List Node := []
  edges : List Edge := []

/-! ## Handles -/

/-- The handle of a column. -/
def handle (table column : String) (side : HandleSide) : String :=
  table ++ "-" ++ column ++ "-" ++ side.name

theorem handle_injective {table a b : String} {side : HandleSide}
    (h : handle table a side = handle table b side) : a = b := by
  unfold handle at h
  have h' := congrArg String.toList h
  simpa [String.toList_append, List.append_assoc, String.toList_inj] using h'

/-- The id of the column of a node that has a handle; empty if there is no node, no handle or no such
column. -/
def columnOfHandle (node : Option Node) (h : Option String) (side : HandleSide) : String :=
  match node, h with
  | some n, some h =>
    if h = "" then ""
    else ((n.columns.find? fun c => handle n.id c.id side == h).map Column.id).getD ""
  | _, _ => ""

/-- The last node with an id. -/
def Scene.node? (s : Scene) (id : String) : Option Node := s.nodes.reverse.find? fun n => n.id == id

/-! ## To and from diagrams -/

/-- The table of a node. -/
def Node.table (n : Node) : Table := ⟨n.id, n.tableName, n.position, n.columns⟩

/-- The column at the source of an edge, empty if its handle is no column's. -/
def Scene.sourceColumn (s : Scene) (e : Edge) : String :=
  columnOfHandle (s.node? e.source) e.sourceHandle .source

/-- The column at the target of an edge, empty if its handle is no column's. -/
def Scene.targetColumn (s : Scene) (e : Edge) : String :=
  columnOfHandle (s.node? e.target) e.targetHandle .target

/-- The relationship of an edge, if it is one. -/
def Scene.relationship? (s : Scene) (e : Edge) : Option Relationship :=
  e.cardinality.map fun c =>
    ⟨e.id, c, ⟨e.source, s.sourceColumn e⟩, ⟨e.target, s.targetColumn e⟩⟩

/-- The diagram on the canvas. -/
def Scene.diagram (s : Scene) : Diagram := ⟨s.nodes.map Node.table, s.edges.filterMap s.relationship?⟩

/-- The warning about an edge that is a relationship and has an end without a column. -/
def Scene.edgeEvent? (s : Scene) (e : Edge) : Option Event :=
  if e.cardinality.isSome && (s.sourceColumn e == "" || s.targetColumn e == "") then
    some (.edgeUnresolved e.id e.sourceHandle e.targetHandle)
  else none

/-- What taking the diagram off the canvas reports. -/
def Scene.events (s : Scene) : List Event := s.edges.filterMap s.edgeEvent?

/-- The node of a table. -/
def Node.ofTable (t : Table) : Node :=
  { id := t.id, tableName := t.name, position := t.position, columns := t.columns, hooks := Hook.all }

/-- The edge of a relationship. -/
def Edge.ofRelationship (r : Relationship) : Edge where
  id := r.id
  source := r.source.table
  target := r.target.table
  sourceHandle := some (handle r.source.table r.source.column .source)
  targetHandle := some (handle r.target.table r.target.column .target)
  cardinality := some r.cardinality

/-- A diagram put on the canvas. -/
def Scene.ofDiagram (d : Diagram) : Scene :=
  ⟨d.tables.map Node.ofTable, d.relationships.map Edge.ofRelationship⟩

/-! ## Reading the canvas's own form -/

open Document

/-- The string under a key, or a default. -/
def optionalText (key default : String) (fs : List (String × Json)) : Except DocumentError String :=
  match Json.get? key fs with
  | some v => Document.text v
  | none => .ok default

/-- The handle under a key, which may be missing or null. -/
def optionalHandle (key : String) (fs : List (String × Json)) : Except DocumentError (Option String) :=
  match Json.get? key fs with
  | some (.str h) => .ok (some h)
  | some .null => .ok none
  | some _ => .error .wrongKind
  | none => .ok none

/-- Reads a node. -/
def Node.ofJson (v : Json) : Except DocumentError Node := do
  let fs ← fields v
  let data ← optionalFields "data" fs
  let place ← optionalFields "position" fs
  let id ← requiredText "id" fs
  let tableName ← optionalText "tableName" "" data
  let columns ← (← optionalItems "columns" data).mapM Column.ofJson
  let kind ← optionalText "type" "tableNode" fs
  return { id, tableName, position := .ofFields place, columns, kind }

/-- The cardinality in an edge's data; none if it is missing or empty. -/
def edgeCardinality (data : List (String × Json)) : Except DocumentError (Option Cardinality) :=
  match (Json.get? "relationType" data).filter Json.isTruthy with
  | some v => do return some (← Cardinality.tagged (← Document.text v))
  | none => .ok none

/-- Reads an edge. -/
def Edge.ofJson (v : Json) : Except DocumentError Edge := do
  let fs ← fields v
  let data ← match (Json.get? "data" fs).filter Json.isTruthy with
    | some d => fields d
    | none => .ok []
  let id ← requiredText "id" fs
  let source ← requiredText "source" fs
  let target ← requiredText "target" fs
  let sourceHandle ← optionalHandle "sourceHandle" fs
  let targetHandle ← optionalHandle "targetHandle" fs
  let cardinality ← edgeCardinality data
  let kind ← optionalText "type" "relationship" fs
  return { id, source, target, sourceHandle, targetHandle, cardinality, kind }

/-- Reads a scene from its nodes and edges. -/
def Scene.ofJson (nodes edges : List Json) : Except DocumentError Scene := do
  return ⟨← nodes.mapM Node.ofJson, ← edges.mapM Edge.ofJson⟩

end Erd.Canvas
