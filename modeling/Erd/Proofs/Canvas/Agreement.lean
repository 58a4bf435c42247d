import Erd.Proofs.Canvas.RoundTrip
import Erd.Proofs.Loading

/-!
# The canvas and validation agree

Whatever an editing session leaves on the canvas, taking the diagram off tells by an empty id that a handle is
no column's. As long as no column has the empty id, validation finds fault with exactly these ends, and
with the first such edge first; the canvas warns about the same edges, once each.

**Results.**
* `isIn_columnOfHandle_iff`: an end is there after taking it off exactly if its handle was a column's.
* `edgeFault?_eq_none_iff`, `edgeEvent?_eq`: what is found wrong with one edge, and what is said about it.
* `agrees`: validation, the canvas and the warnings agree about all edges.
-/
namespace Erd.Canvas

/-- Both handles of an edge are those of columns of the nodes that it names. -/
def Scene.Attached (s : Scene) (e : Edge) : Prop :=
  Canvas.Attached (s.node? e.source) e.sourceHandle .source ∧
    Canvas.Attached (s.node? e.target) e.targetHandle .target

/-- The edge is a relationship, but a handle of it is no column's. -/
def Scene.Loose (s : Scene) (e : Edge) : Prop := e.cardinality.isSome ∧ ¬ s.Attached e

instance (s : Scene) (e : Edge) : Decidable (s.Attached e) :=
  inferInstanceAs (Decidable (Canvas.Attached _ _ _ ∧ Canvas.Attached _ _ _))

instance (s : Scene) (e : Edge) : Decidable (s.Loose e) :=
  inferInstanceAs (Decidable (_ ∧ ¬ s.Attached e))

/-- Validation finds the diagram on the canvas sound exactly if no edge that is a relationship is loose. There
is one warning for each that is and none for any other edge, and what validation finds wrong names the first. -/
structure Scene.Agrees (s : Scene) : Prop where
  valid : Diagram.firstViolation? s.diagram.toJson = none ↔
    ∀ e ∈ s.edges, e.cardinality.isSome → s.Attached e
  warnings : s.events =
    (s.edges.filter fun e => s.Loose e).map fun e => .edgeUnresolved e.id e.sourceHandle e.targetHandle
  level : ∀ event ∈ s.events, event.level = .warning
  first : ∀ v, Diagram.firstViolation? s.diagram.toJson = some v →
    ∃ before e after, s.edges = before ++ e :: after ∧ (∀ b ∈ before, ¬ s.Loose b) ∧ s.Loose e ∧
      ∃ rest, v.message = "Relationship '" ++ e.id ++ "': " ++ rest

/-! ## One edge -/

/-- What validation finds wrong with the relationship of an edge. -/
def Scene.edgeFault? (s : Scene) (e : Edge) : Option Violation :=
  (s.relationship? e).bind s.diagram.relationshipFault?

theorem danglingFault?_diagram (s : Scene) : s.diagram.danglingFault? = s.edges.findSome? s.edgeFault? := by
  rw [Diagram.danglingFault?, ← List.head?_filterMap, ← List.head?_filterMap, Scene.diagram,
    List.filterMap_filterMap]
  rfl

theorem message_unknownTable (r : String) (side : Side) (t : String) :
    (Violation.unknownTable r side t).message =
      "Relationship '" ++ r ++ "': " ++ ("unknown " ++ side.name ++ " table '" ++ t ++ "'") := by
  show "Relationship '" ++ r ++ "': unknown " ++ side.name ++ " table '" ++ t ++ "'" = _
  rw [← String.toList_inj]
  simp

theorem message_unknownColumn (r : String) (side : Side) (c : String) :
    (Violation.unknownColumn r side c).message =
      "Relationship '" ++ r ++ "': " ++ ("unknown " ++ side.name ++ " column '" ++ c ++ "'") := by
  show "Relationship '" ++ r ++ "': unknown " ++ side.name ++ " column '" ++ c ++ "'" = _
  rw [← String.toList_inj]
  simp

/-- The wording of a fault starts with the relationship. -/
theorem message_of_relationshipFault? {d : Diagram} {r : Relationship} {v : Violation}
    (h : d.relationshipFault? r = some v) :
    ∃ rest, v.message = "Relationship '" ++ r.id ++ "': " ++ rest := by
  have hend {side : Side} {e : Endpoint} (he : d.endFault? r side e = some v) :
      ∃ rest, v.message = "Relationship '" ++ r.id ++ "': " ++ rest := by
    unfold Diagram.endFault? at he
    split at he
    · cases he
      rw [message_unknownTable]
      exact ⟨_, rfl⟩
    · split at he
      · cases he
      · cases he
        rw [message_unknownColumn]
        exact ⟨_, rfl⟩
  unfold Diagram.relationshipFault? at h
  split at h
  · next fault hs =>
    cases h
    exact hend hs
  · exact hend h

section Edge

variable {s : Scene} (hids : ∀ n ∈ s.nodes, ∀ c ∈ n.columns, c.id ≠ "")

include hids

theorem ne_empty_of_mem_node? {id : String} {n : Node} (hn : n ∈ s.node? id) {c : Column}
    (hc : c ∈ n.columns) : c.id ≠ "" :=
  hids n (List.mem_reverse.mp (List.mem_of_find?_eq_some (Option.mem_def.mp hn))) c hc

theorem columnOfHandle_eq_empty_iff {id : String} {h : Option String} {side : HandleSide} :
    columnOfHandle (s.node? id) h side = "" ↔ ¬ Attached (s.node? id) h side := by
  refine ⟨?_, columnOfHandle_of_not_attached⟩
  rintro he ⟨n, hn, c, hc, rfl⟩
  rw [Option.mem_def.mp hn, columnOfHandle_handle (List.mem_map_of_mem hc)] at he
  exact ne_empty_of_mem_node? hids hn hc he

/-- An end is there after taking it off exactly if its handle was a column's. -/
theorem isIn_columnOfHandle_iff {id : String} {h : Option String} {side : HandleSide} :
    Endpoint.IsIn s.diagram.lastTable? ⟨id, columnOfHandle (s.node? id) h side⟩ ↔
      Attached (s.node? id) h side := by
  rw [Endpoint.IsIn, lastTable?_diagram]
  constructor
  · rintro ⟨t, ht, hc⟩
    obtain ⟨n, hn, rfl⟩ := Option.map_eq_some_iff.mp ht
    obtain ⟨c, hc, he⟩ := List.mem_map.mp hc
    by_contra hno
    rw [columnOfHandle_of_not_attached hno] at he
    exact ne_empty_of_mem_node? hids hn hc he
  · rintro ⟨n, hn, c, hc, rfl⟩
    have hid := List.mem_map_of_mem (f := Column.id) hc
    rw [Option.mem_def.mp hn, columnOfHandle_handle hid]
    exact ⟨n.table, rfl, hid⟩

theorem edgeFault?_eq_none_iff {e : Edge} : s.edgeFault? e = none ↔ ¬ s.Loose e := by
  rw [Scene.edgeFault?, Scene.relationship?, Scene.Loose]
  cases e.cardinality with
  | none => simp
  | some k =>
    rw [Option.map_some, Option.bind_some, Diagram.relationshipFault?_eq_none_iff, Relationship.IsIn]
    simp only [Scene.sourceColumn, Scene.targetColumn, isIn_columnOfHandle_iff hids]
    simp [Scene.Attached]

theorem edgeEvent?_eq (e : Edge) :
    s.edgeEvent? e =
      if s.Loose e then some (.edgeUnresolved e.id e.sourceHandle e.targetHandle) else none := by
  rw [Scene.edgeEvent?]
  refine if_congr ?_ rfl rfl
  simp only [Bool.and_eq_true, Bool.or_eq_true, beq_iff_eq, Scene.sourceColumn, Scene.targetColumn,
    columnOfHandle_eq_empty_iff hids, Scene.Loose, Scene.Attached, not_and_or]

end Edge

/-! ## All edges -/

theorem events_eq {s : Scene} (hids : ∀ n ∈ s.nodes, ∀ c ∈ n.columns, c.id ≠ "") :
    s.events = (s.edges.filter fun e => s.Loose e).map
      fun e => .edgeUnresolved e.id e.sourceHandle e.targetHandle := by
  rw [Scene.events, ← List.filterMap_eq_map, List.filterMap_filter]
  refine List.filterMap_congr fun e _ => ?_
  rw [edgeEvent?_eq hids]
  simp

/-- With numbers for positions and no empty ids of columns validation, the canvas and the warnings agree. -/
theorem agrees {s : Scene} (hpos : ∀ n ∈ s.nodes, n.position.x.IsNumber ∧ n.position.y.IsNumber)
    (hids : ∀ n ∈ s.nodes, ∀ c ∈ n.columns, c.id ≠ "") : s.Agrees := by
  have hnumeric : ∀ t ∈ s.diagram.tables, Loading.Numeric t.position := by
    intro t ht
    obtain ⟨n, hn, rfl⟩ := List.mem_map.mp ht
    exact Loading.numeric_of_isNumber (hpos n hn).1 (hpos n hn).2
  have hfault : Diagram.firstViolation? s.diagram.toJson = s.edges.findSome? s.edgeFault? := by
    rw [Diagram.firstViolation?_toJson hnumeric, danglingFault?_diagram]
  refine ⟨?_, events_eq hids, ?_, ?_⟩
  · rw [hfault, List.findSome?_eq_none_iff]
    refine forall₂_congr fun e _ => ?_
    rw [edgeFault?_eq_none_iff hids, Scene.Loose, not_and_not_right]
  · intro event he
    rw [events_eq hids] at he
    obtain ⟨e, -, rfl⟩ := List.mem_map.mp he
    rfl
  · intro v hv
    rw [hfault] at hv
    obtain ⟨before, e, after, hsplit, he, hbefore⟩ := List.findSome?_eq_some_iff.mp hv
    have hloose : s.Loose e := by
      by_contra hno
      rw [(edgeFault?_eq_none_iff hids).mpr hno] at he
      cases he
    refine ⟨before, e, after, hsplit, fun b hb => (edgeFault?_eq_none_iff hids).mp (hbefore b hb), hloose, ?_⟩
    obtain ⟨r, hr, hf⟩ := Option.bind_eq_some_iff.mp he
    obtain ⟨k, -, rfl⟩ := Option.map_eq_some_iff.mp hr
    have hmessage := message_of_relationshipFault? hf
    exact hmessage

/-- Two nodes of one id, the last of which has the column; an edge to a deleted table, one with the sides
swapped, and one that is no relationship. -/
def sketch : Scene where
  nodes :=
    [{ id := "u" }, { id := "u", columns := [{ id := "c", name := "id", type := .int }] },
      { id := "p", columns := [{ id := "d", name := "user_id", type := .int }] }]
  edges :=
    [{ id := "1", source := "u", target := "p", sourceHandle := some "u-c-source",
       targetHandle := some "p-d-target", cardinality := some .oneToMany },
      { id := "2", source := "u", target := "x", sourceHandle := some "u-c-source", targetHandle := none,
        cardinality := some .manyToMany },
      { id := "3", source := "p", target := "u", sourceHandle := some "p-d-target",
        targetHandle := some "u-c-source", cardinality := some .oneToOne },
      { id := "4", source := "u", target := "p" }]

theorem agrees_sketch :
    (∀ n ∈ sketch.nodes, n.position.x.IsNumber ∧ n.position.y.IsNumber) ∧
      (∀ n ∈ sketch.nodes, ∀ c ∈ n.columns, c.id ≠ "") ∧ sketch.Agrees := by
  have hpos : ∀ n ∈ sketch.nodes, n.position.x.IsNumber ∧ n.position.y.IsNumber := by
    intro n hn
    simp only [sketch, List.mem_cons, List.not_mem_nil, or_false] at hn
    rcases hn with rfl | rfl | rfl <;> exact ⟨trivial, trivial⟩
  have hids : ∀ n ∈ sketch.nodes, ∀ c ∈ n.columns, c.id ≠ "" := by decide
  exact ⟨hpos, hids, agrees hpos hids⟩

end Erd.Canvas
