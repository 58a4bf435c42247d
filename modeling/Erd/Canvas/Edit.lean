import Erd.Canvas.Basic
import Erd.Diagram.Loading
import Erd.Grid

/-!
# Editing the canvas

An editing session changes the canvas step by step. A step names tables and columns by id, and of several
with one id the first is meant. Deleting a table or a column leaves the edges to it; deleting by id deletes
all that have it.
-/
namespace Erd

/-- A new column as the editor adds it: a whole number as primary key, or else a text that can be null. -/
def Column.fresh (id : String) (name : String) (isPrimaryKey : Bool) : Column where
  id := id
  name := name
  type := if isPrimaryKey then .int else .varchar
  constraints :=
    { isPrimaryKey := isPrimaryKey, isNullable := !isPrimaryKey, isUnique := isPrimaryKey }

/-- A new table as the editor adds it after `count` others: numbered, with a primary key. -/
def Table.fresh (id columnId : String) (count : Int) : Table where
  id := id
  name := "table_" ++ toString (count + 1)
  columns := [Column.fresh columnId "id" true]

namespace Canvas

/-- A flag of a column. -/
inductive Flag where
  | primaryKey
  | nullable
  | unique
  | foreignKey
  deriving DecidableEq, Repr

/-- The flags with one of them set. -/
def Flag.set (value : Bool) (c : Constraints) : Flag → Constraints
  | .primaryKey => { c with isPrimaryKey := value }
  | .nullable => { c with isNullable := value }
  | .unique => { c with isUnique := value }
  | .foreignKey => { c with isForeignKey := value }

/-- A change of one column. -/
inductive ColumnEdit where
  | rename (name : String)
  | setType (type : ColumnType)
  | setFlag (flag : Flag) (value : Bool)
  deriving DecidableEq, Repr

/-- A change of one table. -/
inductive TableEdit where
  | rename (name : String)
  | move (x y : Json)
  | addColumn (id name : String) (isPrimaryKey : Bool)
  | deleteColumn (id : String)
  | editColumn (id : String) (e : ColumnEdit)

/-- A step of an editing session. -/
inductive Edit where
  | addTable (id columnId : String)
  | deleteTable (id : String)
  | editTable (id : String) (e : TableEdit)
  | connect (e : Edge)
  | disconnect (id : String)
  | reload

/-- Why a step cannot be done. -/
inductive EditError where
  | invalid (v : Violation)
  | noGrid (e : GridError)
  deriving DecidableEq, Repr

/-- A list with its first element that fulfils a condition changed. -/
def changeFirst {α : Type} (p : α → Bool) (f : α → α) : List α → List α
  | [] => []
  | a :: as => if p a then f a :: as else a :: changeFirst p f as

/-- A column changed. -/
def ColumnEdit.apply (c : Column) : ColumnEdit → Column
  | .rename name => { c with name := name }
  | .setType type => { c with type := type }
  | .setFlag flag value => { c with constraints := flag.set value c.constraints }

/-- A table's node changed. -/
def TableEdit.apply (n : Node) : TableEdit → Node
  | .rename name => { n with tableName := name }
  | .move x y => { n with position := ⟨x, y⟩ }
  | .addColumn id name isPrimaryKey => { n with columns := n.columns ++ [Column.fresh id name isPrimaryKey] }
  | .deleteColumn id => { n with columns := n.columns.filter fun c => c.id != id }
  | .editColumn id e => { n with columns := changeFirst (fun c => c.id == id) e.apply n.columns }

/-- The node of a new table on a grid. -/
def newNode (g : Grid) (count : Nat) (id columnId : String) : Except GridError Node :=
  match g.place? count with
  | some p =>
    let t := Table.fresh id columnId count
    .ok { Node.ofTable t with position := p.position, hooks := [] }
  | none => .error .noColumns

/-- The canvas after a step. Reloading reads its diagram as an untrusted document. -/
def Edit.apply (g : Grid) (s : Scene) : Edit → Except EditError Scene
  | .addTable id columnId =>
    match newNode g s.nodes.length id columnId with
    | .ok n => .ok { s with nodes := s.nodes ++ [n] }
    | .error e => .error (.noGrid e)
  | .deleteTable id => .ok { s with nodes := s.nodes.filter fun n => n.id != id }
  | .editTable id e => .ok { s with nodes := changeFirst (fun n => n.id == id) e.apply s.nodes }
  | .connect e => .ok { s with edges := s.edges ++ [e] }
  | .disconnect id => .ok { s with edges := s.edges.filter fun e => e.id != id }
  | .reload =>
    match Diagram.load s.diagram.toJson with
    | .ok d => .ok (Scene.ofDiagram d)
    | .error v => .error (.invalid v)

/-- What a step reports: reloading takes the diagram off the canvas. -/
def Edit.events (s : Scene) : Edit → List Event
  | .reload => s.events
  | _ => []

end Canvas

end Erd
