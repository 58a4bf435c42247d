import Erd.Proofs.Validation

/-!
# Written diagrams are loaded again

A diagram that is written as a document has the shape that strict loading asks for, as far as its positions
are numbers. What can still be wrong with it are the ends of its relationships.

**Results.**
* `Loading.diagram_toJson`: the shape of a written diagram is read as the diagram.
* `Diagram.firstViolation?_toJson`: of a written diagram only the ends can be wrong.
* `Diagram.load_toJson`: an intact diagram without repeated ids is loaded from its written form.
-/
namespace Erd

/-- The value is a number, whole or not. -/
def Json.IsNumber : Json → Prop
  | .int _ => True
  | .float _ => True
  | _ => False

namespace Loading

/-- The coordinates are numbers. -/
def Numeric (p : Position) : Prop := (∀ path, number path p.x = .ok p.x) ∧ ∀ path, number path p.y = .ok p.y

theorem numeric_of_isNumber {p : Position} (hx : p.x.IsNumber) (hy : p.y.IsNumber) : Numeric p := by
  have hread {v : Json} (hv : v.IsNumber) (path : List PathPart) : number path v = .ok v := by
    cases v with
    | int n => rfl
    | float x => rfl
    | _ => cases hv
  exact ⟨hread hx, hread hy⟩

theorem numeric_point (p : GridPoint) : Numeric p.position := ⟨fun _ => rfl, fun _ => rfl⟩

variable {α : Type}

/-- Items that are read back one by one are read back as a list. -/
theorem itemsFrom_map {r : Reader α} {f : α → Json} {as : List α} (h : ∀ a ∈ as, ∀ path, r path (f a) = .ok a)
    (path : List PathPart) (i : Nat) : itemsFrom r path i (as.map f) = .ok as := by
  induction as generalizing i with
  | nil => rfl
  | cons a as ih =>
    have hrest := ih (fun b hb => h b (List.mem_cons_of_mem a hb)) (i + 1)
    simp only [List.map_cons, itemsFrom, h a List.mem_cons_self, hrest]

theorem field_eq {r : Reader α} {key : String} {path : List PathPart} {fs : List (String × Json)} {v : Json}
    {a : α} (hv : Json.get? key fs = some v) (hr : r (path ++ [.key key]) v = .ok a) :
    field r key path fs = .ok a := by
  rw [field, hv]
  exact hr

theorem columnType_name (path : List PathPart) (t : ColumnType) : columnType path (.str t.name) = .ok t := by
  rw [columnType, ColumnType.ofName?_name]

theorem cardinality_tag (path : List PathPart) (c : Cardinality) : cardinality path (.str c.tag) = .ok c := by
  rw [cardinality, Cardinality.ofTag?_tag]

theorem column_toJson (path : List PathPart) (c : Column) : column path c.toJson = .ok c := by
  obtain ⟨id, name, type, flags⟩ := c
  simp only [column, Column.toJson, partFields, bind, Except.bind]
  rw [field_eq (v := .str id) rfl rfl, field_eq (v := .str name) rfl rfl,
    field_eq (v := .str type.name) rfl (columnType_name _ type), field_eq (v := flags.toJson) rfl rfl]
  rfl

theorem position_toJson {p : Position} (h : Numeric p) (path : List PathPart) :
    position path p.toJson = .ok p := by
  simp only [position, Position.toJson, partFields, bind, Except.bind]
  rw [field_eq (v := p.x) rfl (h.1 _), field_eq (v := p.y) rfl (h.2 _)]
  rfl

theorem table_toJson {t : Table} (h : Numeric t.position) (path : List PathPart) :
    table path t.toJson = .ok t := by
  have hcols (path : List PathPart) : list column path (.arr (t.columns.map Column.toJson)) = .ok t.columns :=
    itemsFrom_map (fun c _ path => column_toJson path c) path 0
  simp only [table, Table.toJson, partFields, bind, Except.bind]
  rw [field_eq (v := .str t.id) rfl rfl, field_eq (v := .str t.name) rfl rfl,
    field_eq (v := t.position.toJson) rfl (position_toJson h _),
    field_eq (v := .arr (t.columns.map Column.toJson)) rfl (hcols _)]
  rfl

theorem relationship_toJson (path : List PathPart) (r : Relationship) :
    relationship path r.toJson = .ok r := by
  obtain ⟨id, k, ⟨st, sc⟩, tt, tc⟩ := r
  simp only [relationship, Relationship.toJson, partFields, bind, Except.bind]
  rw [field_eq (v := .str id) rfl rfl, field_eq (v := .str k.tag) rfl (cardinality_tag _ k),
    field_eq (v := .str st) rfl rfl, field_eq (v := .str sc) rfl rfl, field_eq (v := .str tt) rfl rfl,
    field_eq (v := .str tc) rfl rfl]
  rfl

/-- The shape of a written diagram is read as the diagram. -/
theorem diagram_toJson {d : Diagram} (h : ∀ t ∈ d.tables, Numeric t.position) :
    diagram d.toJson = .ok d := by
  have htables (path : List PathPart) : list table path (.arr (d.tables.map Table.toJson)) = .ok d.tables :=
    itemsFrom_map (fun t ht path => table_toJson (h t ht) path) path 0
  have hrels (path : List PathPart) :
      list relationship path (.arr (d.relationships.map Relationship.toJson)) = .ok d.relationships :=
    itemsFrom_map (fun r _ path => relationship_toJson path r) path 0
  simp only [diagram, Diagram.toJson, bind, Except.bind]
  rw [field_eq (v := .arr (d.tables.map Table.toJson)) rfl (htables _),
    field_eq (v := .arr (d.relationships.map Relationship.toJson)) rfl (hrels _)]
  rfl

end Loading

/-! ## Whole diagrams -/

/-- Ids do not repeat among the tables and among the columns of each table. -/
structure Diagram.DistinctIds (d : Diagram) : Prop where
  tables : (d.tables.map Table.id).Nodup
  columns : ∀ t ∈ d.tables, (t.columns.map Column.id).Nodup

namespace Diagram

variable {d : Diagram}

/-- Of a written diagram only the ends of its relationships can be wrong. -/
theorem firstViolation?_toJson (hn : ∀ t ∈ d.tables, Loading.Numeric t.position) :
    firstViolation? d.toJson = d.danglingFault? := by
  rw [firstViolation?, load, Loading.diagram_toJson hn]
  cases hf : d.danglingFault? with
  | none => simp [hf]
  | some fault => simp [hf]

/-- An intact diagram without repeated ids is loaded from its written form. -/
theorem load_toJson (hd : d.DistinctIds) (hi : d.Intact)
    (hn : ∀ t ∈ d.tables, Loading.Numeric t.position) : load d.toJson = .ok d := by
  refine load_eq_ok_iff.mpr ⟨Loading.diagram_toJson hn, fun r hr => ?_⟩
  rw [lastTable?_eq_table? hd.tables, ← isSome_resolve_iff]
  exact hi r hr

end Diagram

end Erd
