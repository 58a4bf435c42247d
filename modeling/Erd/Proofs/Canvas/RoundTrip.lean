import Erd.Canvas.Basic
import Erd.Proofs.Validation

/-!
# To the canvas and back

A diagram that is put on the canvas and taken off again keeps its tables and its relationships. An end of a
relationship is a handle while it is there, and is looked for among the columns of the last node with the id of
its table. In one node different columns have different handles, hyphens or not, so what is found is the column
that was meant. If that node does not have it, the id of the column is lost and stays empty.

What is taken off the canvas has lost all that can be lost, so nothing changes a second time. Validation looks
tables up from the end as the canvas does, so nothing is lost of what is loaded.

**Results.**
* `columnOfHandle_handle`, `columnOfHandle_of_not_attached`: what a handle leads to.
* `diagram_ofDiagram`: what is left of a diagram that was put on the canvas.
* `settled_diagram`: what is taken off the canvas has lost all that can be lost.
* `diagram_ofDiagram_exact`: the round trip and what follows of it.
-/
namespace Erd

/-! ## What is kept -/

namespace Diagram

/-- An end, without the id of its column if the last table with its id does not have that column. -/
def keptEnd (d : Diagram) (e : Endpoint) : Endpoint :=
  if e.IsIn d.lastTable? then e else { e with column := "" }

/-- A relationship with what is kept of its ends. -/
def kept (d : Diagram) (r : Relationship) : Relationship :=
  { r with source := d.keptEnd r.source, target := d.keptEnd r.target }

/-- Of every relationship all is kept. -/
def Settled (d : Diagram) : Prop := ∀ r ∈ d.relationships, d.kept r = r

variable {d : Diagram}

theorem keptEnd_eq_self {e : Endpoint} (h : e.IsIn d.lastTable? ∨ e.column = "") : d.keptEnd e = e := by
  unfold keptEnd
  rcases h with h | h
  · rw [if_pos h]
  · rw [← h, ite_self]

/-- Of what is loaded all is kept. -/
theorem settled_of_load {v : Json} (h : load v = .ok d) : d.Settled := by
  intro r hr
  obtain ⟨hs, ht⟩ := (load_eq_ok_iff.mp h).2 r hr
  rw [kept, keptEnd_eq_self (.inl hs), keptEnd_eq_self (.inl ht)]

end Diagram

namespace Canvas

/-! ## Handles -/

/-- The handle is that of a column of the node. -/
def Attached (node : Option Node) (h : Option String) (side : HandleSide) : Prop :=
  ∃ n ∈ node, ∃ c ∈ n.columns, h = some (handle n.id c.id side)

instance (node : Option Node) (h : Option String) (side : HandleSide) : Decidable (Attached node h side) :=
  inferInstanceAs (Decidable (∃ n ∈ node, ∃ c ∈ n.columns, h = some (handle n.id c.id side)))

theorem handle_ne_empty (table column : String) (side : HandleSide) : handle table column side ≠ "" := by
  intro h
  have := congrArg String.toList h
  simp [handle] at this

/-- The handle of a column leads to it. -/
theorem columnOfHandle_handle {n : Node} {id : String} (h : id ∈ n.columns.map Column.id)
    (side : HandleSide) : columnOfHandle (some n) (some (handle n.id id side)) side = id := by
  obtain ⟨c, hc, rfl⟩ := List.mem_map.mp h
  rw [columnOfHandle, if_neg (handle_ne_empty _ _ _)]
  cases hfind : n.columns.find? fun b => handle n.id b.id side == handle n.id c.id side with
  | none => exact absurd (List.find?_eq_none.mp hfind c hc) (by simp)
  | some b => exact handle_injective (by simpa using List.find?_some hfind)

/-- A handle that is no column's leads to the empty id. -/
theorem columnOfHandle_of_not_attached {node : Option Node} {h : Option String} {side : HandleSide}
    (hno : ¬ Attached node h side) : columnOfHandle node h side = "" := by
  unfold columnOfHandle
  split
  · next n g =>
    split
    · rfl
    · have hnone : (n.columns.find? fun c => handle n.id c.id side == g) = none := by
        refine List.find?_eq_none.mpr fun c hc he => hno ⟨n, rfl, c, hc, ?_⟩
        rw [← (beq_iff_eq.mp he : _ = g)]
      rw [hnone]
      rfl
  · rfl

/-- What a handle leads to is a column of the node or the empty id. -/
theorem columnOfHandle_mem_or (node : Option Node) (h : Option String) (side : HandleSide) :
    (∃ n ∈ node, columnOfHandle node h side ∈ n.columns.map Column.id) ∨
      columnOfHandle node h side = "" := by
  by_cases ha : Attached node h side
  · obtain ⟨n, hn, c, hc, rfl⟩ := ha
    cases hn
    have hid := List.mem_map_of_mem (f := Column.id) hc
    refine .inl ⟨n, rfl, ?_⟩
    rwa [columnOfHandle_handle hid]
  · exact .inr (columnOfHandle_of_not_attached ha)

/-! ## Putting on -/

theorem node?_ofDiagram (d : Diagram) (id : String) :
    (Scene.ofDiagram d).node? id = (d.lastTable? id).map Node.ofTable := by
  rw [Scene.node?, Scene.ofDiagram, ← List.map_reverse, List.find?_map]
  rfl

/-- The handle of an end leads to what is kept of it. -/
theorem columnOfHandle_ofDiagram (d : Diagram) (e : Endpoint) (side : HandleSide) :
    columnOfHandle ((Scene.ofDiagram d).node? e.table) (some (handle e.table e.column side)) side =
      (d.keptEnd e).column := by
  rw [node?_ofDiagram, Diagram.keptEnd]
  split
  · next h =>
    obtain ⟨t, ht, hc⟩ := h
    have hid : t.id = e.table := by simpa using List.find?_some (Option.mem_def.mp ht)
    rw [Option.mem_def.mp ht, Option.map_some, ← hid]
    exact columnOfHandle_handle (n := Node.ofTable t) hc side
  · next h =>
    refine columnOfHandle_of_not_attached fun ha => h ?_
    obtain ⟨n, hn, c, hc, he⟩ := ha
    obtain ⟨t, ht, rfl⟩ := Option.map_eq_some_iff.mp hn
    have hid : t.id = e.table := by simpa using List.find?_some ht
    have hcol : e.column = c.id := by
      rw [← hid] at he
      exact handle_injective (Option.some.inj he)
    exact ⟨t, ht, hcol ▸ List.mem_map_of_mem hc⟩

theorem table_keptEnd (d : Diagram) (e : Endpoint) : (d.keptEnd e).table = e.table := by
  unfold Diagram.keptEnd
  split <;> rfl

/-- What is left of a diagram that was put on the canvas. -/
theorem diagram_ofDiagram (d : Diagram) :
    (Scene.ofDiagram d).diagram = ⟨d.tables, d.relationships.map d.kept⟩ := by
  have htables : (d.tables.map Node.ofTable).map Node.table = d.tables := by
    rw [List.map_map]
    exact List.map_id d.tables
  have hend (e : Endpoint) : (⟨e.table, (d.keptEnd e).column⟩ : Endpoint) = d.keptEnd e := by
    rw [← table_keptEnd d e]
  have hrel (r : Relationship) :
      (Scene.ofDiagram d).relationship? (Edge.ofRelationship r) = some (d.kept r) := by
    simp only [Scene.relationship?, Scene.sourceColumn, Scene.targetColumn, Edge.ofRelationship,
      columnOfHandle_ofDiagram, Option.map_some, hend]
    rfl
  have hrels : (d.relationships.map Edge.ofRelationship).filterMap (Scene.ofDiagram d).relationship? =
      d.relationships.map d.kept := by
    rw [List.filterMap_map, ← List.filterMap_eq_map]
    exact congrArg (List.filterMap · d.relationships) (funext hrel)
  calc (Scene.ofDiagram d).diagram
      = ⟨(d.tables.map Node.ofTable).map Node.table,
          (d.relationships.map Edge.ofRelationship).filterMap (Scene.ofDiagram d).relationship?⟩ := rfl
    _ = ⟨d.tables, d.relationships.map d.kept⟩ := by rw [htables, hrels]

theorem diagram_ofDiagram_of_settled {d : Diagram} (h : d.Settled) : (Scene.ofDiagram d).diagram = d := by
  have hkept : d.relationships.map d.kept = d.relationships :=
    (List.map_congr_left h).trans (List.map_id d.relationships)
  rw [diagram_ofDiagram, hkept]

/-! ## Taking off -/

theorem lastTable?_diagram (s : Scene) (id : String) :
    s.diagram.lastTable? id = (s.node? id).map Node.table := by
  rw [Diagram.lastTable?, Scene.diagram, ← List.map_reverse, List.find?_map]
  rfl

/-- Of an end that is taken off the canvas all is kept. -/
theorem keptEnd_columnOfHandle (s : Scene) (id : String) (h : Option String) (side : HandleSide) :
    s.diagram.keptEnd ⟨id, columnOfHandle (s.node? id) h side⟩ =
      ⟨id, columnOfHandle (s.node? id) h side⟩ := by
  refine Diagram.keptEnd_eq_self ?_
  refine (columnOfHandle_mem_or (s.node? id) h side).imp (fun hm => ?_) fun hc => hc
  obtain ⟨n, hn, hid⟩ := hm
  refine ⟨n.table, ?_, hid⟩
  rw [lastTable?_diagram, Option.mem_def.mp hn, Option.map_some]
  exact Option.mem_some_self n.table

/-- What is taken off the canvas has lost all that can be lost. -/
theorem settled_diagram (s : Scene) : s.diagram.Settled := by
  intro r hr
  obtain ⟨e, -, he⟩ := List.mem_filterMap.mp hr
  obtain ⟨k, -, rfl⟩ := Option.map_eq_some_iff.mp he
  rw [Diagram.kept]
  simp only [Scene.sourceColumn, Scene.targetColumn, keptEnd_columnOfHandle]

/-- Put on the canvas and taken off again a diagram keeps its tables and its relationships, without the id of a
column that the last table with the id of the end does not have. A second time nothing changes, nor does the
first time what was loaded or was taken off the canvas before. -/
theorem diagram_ofDiagram_exact :
    (∀ d : Diagram, (Scene.ofDiagram d).diagram = ⟨d.tables, d.relationships.map d.kept⟩) ∧
      (∀ d : Diagram, (Scene.ofDiagram (Scene.ofDiagram d).diagram).diagram = (Scene.ofDiagram d).diagram) ∧
      (∀ (v : Json) (d : Diagram), Diagram.load v = .ok d → (Scene.ofDiagram d).diagram = d) ∧
      ∀ s : Scene, (Scene.ofDiagram s.diagram).diagram = s.diagram :=
  ⟨diagram_ofDiagram, fun d => diagram_ofDiagram_of_settled (settled_diagram (Scene.ofDiagram d)),
    fun _ _ h => diagram_ofDiagram_of_settled (Diagram.settled_of_load h),
    fun s => diagram_ofDiagram_of_settled (settled_diagram s)⟩

/-- Two tables whose columns have one handle. -/
def hyphens : Diagram where
  tables :=
    [{ id := "a", name := "users", columns := [{ id := "b-c", name := "id", type := .int }] },
      { id := "a-b", name := "posts", columns := [{ id := "c", name := "user_id", type := .int }] }]
  relationships :=
    [⟨"r", .oneToMany, ⟨"a", "b-c"⟩, ⟨"a-b", "c"⟩⟩, ⟨"s", .manyToMany, ⟨"a-b", "c"⟩, ⟨"a", "b-c"⟩⟩]

theorem diagram_ofDiagram_hyphens :
    handle "a" "b-c" .source = handle "a-b" "c" .source ∧ Diagram.load hyphens.toJson = .ok hyphens ∧
      (Scene.ofDiagram hyphens).diagram = hyphens :=
  ⟨by decide, rfl, diagram_ofDiagram_exact.2.2.1 hyphens.toJson hyphens rfl⟩

end Canvas

end Erd
