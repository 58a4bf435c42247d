import Erd.Interchange
import Erd.Proofs.Building
import Erd.Proofs.Json.RoundTrip
import Erd.Proofs.Loading

/-!
# Stored diagrams come back

A diagram is stored as the text of its document and loaded from it. Nothing is lost on the way as long as every
relationship stands up to validation: the parts of a document have distinct keys, and what is printed of it is
read back. A document that was not written here may say more than a diagram holds, since its flags may be any
values; loading keeps their truth, and what is written of that is the normal form of the document.

**Results.**
* `exact_toJson`: the text of a document tells it, if all positions are whole.
* `Diagram.load_toJson_of_load`: what was loaded is loaded again from what is written of it.
* `stored`: storing and loading a diagram gives the diagram, and loading a document reaches its normal form.
-/
namespace Erd

/-- Both coordinates are whole numbers. -/
def Position.IsWhole (p : Position) : Prop := ∃ x y : Int, p = ⟨.int x, .int y⟩

theorem Loading.numeric_of_isWhole {p : Position} (h : p.IsWhole) : Numeric p := by
  obtain ⟨x, y, rfl⟩ := h
  exact numeric_of_isNumber trivial trivial

/-! ## Texts of documents -/

section Exact

open Json

theorem exact_constraints (c : Constraints) : Exact c.toJson := .obj (by simp) (by simp [Exact.bool])

theorem exact_column (c : Column) : Exact c.toJson := .obj (by simp) (by simp [Exact.str, exact_constraints])

theorem exact_position {p : Position} (h : p.IsWhole) : Exact p.toJson := by
  obtain ⟨x, y, rfl⟩ := h
  exact .obj (by simp) (by simp [Exact.int])

theorem exact_items {α : Type} {f : α → Json} {as : List α} (h : ∀ a ∈ as, Exact (f a)) :
    Exact (.arr (as.map f)) := by
  refine .arr fun v hv => ?_
  obtain ⟨a, ha, rfl⟩ := List.mem_map.mp hv
  exact h a ha

theorem exact_table {t : Table} (h : t.position.IsWhole) : Exact t.toJson := by
  have hcolumns : Exact (.arr (t.columns.map Column.toJson)) := exact_items fun c _ => exact_column c
  exact .obj (by simp) (by simp [Exact.str, exact_position h, hcolumns])

theorem exact_relationship (r : Relationship) : Exact r.toJson := .obj (by simp) (by simp [Exact.str])

/-- The text of a document tells it, if all positions are whole. -/
theorem exact_toJson {d : Diagram} (h : ∀ t ∈ d.tables, t.position.IsWhole) : Exact d.toJson := by
  have htables : Exact (.arr (d.tables.map Table.toJson)) := exact_items fun t ht => exact_table (h t ht)
  have hrelationships : Exact (.arr (d.relationships.map Relationship.toJson)) :=
    exact_items fun r _ => exact_relationship r
  exact .obj (by simp) (by simp [htables, hrelationships])

end Exact

/-! ## Loading what was loaded -/

namespace Loading

theorem isNumber_of_number {path : List PathPart} {v n : Json} (h : number path v = .ok n) : n.IsNumber := by
  cases v with
  | int n => cases h; trivial
  | float x => cases h; trivial
  | _ => cases h

theorem numeric_of_position {path : List PathPart} {v : Json} {p : Position} (h : position path v = .ok p) :
    Numeric p := by
  obtain ⟨fs, -, h⟩ := Except.bind_eq_ok.mp h
  obtain ⟨x, hx, h⟩ := Except.bind_eq_ok.mp h
  obtain ⟨y, hy, h⟩ := Except.bind_eq_ok.mp h
  cases h
  obtain ⟨vx, -, hx⟩ := exists_of_field hx
  obtain ⟨vy, -, hy⟩ := exists_of_field hy
  exact numeric_of_isNumber (isNumber_of_number hx) (isNumber_of_number hy)

theorem numeric_of_table {path : List PathPart} {v : Json} {t : Table} (h : table path v = .ok t) :
    Numeric t.position := by
  obtain ⟨fs, -, h⟩ := Except.bind_eq_ok.mp h
  obtain ⟨id, -, h⟩ := Except.bind_eq_ok.mp h
  obtain ⟨name, -, h⟩ := Except.bind_eq_ok.mp h
  obtain ⟨place, hplace, h⟩ := Except.bind_eq_ok.mp h
  obtain ⟨columns, -, h⟩ := Except.bind_eq_ok.mp h
  cases h
  obtain ⟨w, -, hplace⟩ := exists_of_field hplace
  exact numeric_of_position hplace

/-- What is read of each item holds of every element of the list. -/
theorem forall_of_itemsFrom {α : Type} {r : Reader α} {P : α → Prop} (hP : ∀ path v a, r path v = .ok a → P a)
    {path : List PathPart} {i : Nat} {vs : List Json} {as : List α} (h : itemsFrom r path i vs = .ok as) :
    ∀ a ∈ as, P a := by
  induction vs generalizing i as with
  | nil =>
    cases h
    simp
  | cons v vs ih =>
    unfold itemsFrom at h
    cases hv : r (path ++ [.index i]) v with
    | error e => simp [hv] at h
    | ok a =>
      cases hvs : itemsFrom r path (i + 1) vs with
      | error e => simp [hv, hvs] at h
      | ok bs =>
        rw [hv, hvs] at h
        cases h
        exact List.forall_mem_cons.mpr ⟨hP _ _ _ hv, ih hvs⟩

/-- The positions in a document of the right shape are numbers. -/
theorem numeric_of_diagram {v : Json} {d : Diagram} (h : diagram v = .ok d) :
    ∀ t ∈ d.tables, Numeric t.position := by
  cases v with
  | obj fs =>
    obtain ⟨tables, htables, h⟩ := Except.bind_eq_ok.mp h
    obtain ⟨relationships, -, h⟩ := Except.bind_eq_ok.mp h
    cases h
    obtain ⟨w, -, htables⟩ := exists_of_field htables
    cases w with
    | arr vs => exact forall_of_itemsFrom (fun _ _ _ => numeric_of_table) htables
    | _ => cases htables
  | _ => cases h

end Loading

namespace Diagram

variable {d : Diagram}

/-- A diagram whose relationships stand up to validation is loaded from what is written of it. -/
theorem load_toJson_of_sound (hends : d.danglingFault? = none)
    (hn : ∀ t ∈ d.tables, Loading.Numeric t.position) : load d.toJson = .ok d :=
  load_eq_ok_iff.mpr ⟨Loading.diagram_toJson hn, danglingFault?_eq_none_iff.mp hends⟩

/-- What was loaded is loaded again from what is written of it, whatever it was loaded from. -/
theorem load_toJson_of_load {v : Json} (h : load v = .ok d) : load d.toJson = .ok d := by
  obtain ⟨hshape, hends⟩ := load_eq_ok_iff.mp h
  exact load_toJson_of_sound (danglingFault?_eq_none_iff.mpr hends) (Loading.numeric_of_diagram hshape)

/-- The text of a diagram is read as the diagram. -/
theorem read_print (hends : d.danglingFault? = none) (hwhole : ∀ t ∈ d.tables, t.position.IsWhole) :
    read d.toJson.print = .ok d := by
  rw [read, Json.read_print (exact_toJson hwhole)]
  show (load d.toJson).mapError _ = _
  rw [load_toJson_of_sound hends fun t ht => Loading.numeric_of_isWhole (hwhole t ht)]
  rfl

end Diagram

/-- A diagram with whole positions whose relationships stand up to validation is read from its own text as it is,
ids and all, without complaints, and is then written as the same text. A valid document is loaded and built as
one diagram, and what is written of that is valid again and is loaded and built as the same diagram, whatever the
flags of the first document were. -/
theorem stored :
    (∀ d : Diagram, d.danglingFault? = none → (∀ t ∈ d.tables, t.position.IsWhole) →
      ∀ (o : Sql.TableOptions) (written : Dialect) (sheet : Outline.Sheet) (spoken : Dialect),
        ∃ r, InputFormat.document.read sheet spoken (OutputFormat.document.write o written d) = .ok r ∧
          r.diagram = d ∧ r.diagnostics = [] ∧
          OutputFormat.document.write o written r.diagram = OutputFormat.document.write o written d) ∧
      ∀ v : Json, Diagram.firstViolation? v = none →
        ∃ d, Diagram.load v = .ok d ∧ Diagram.ofJson v = .ok d ∧
          Diagram.firstViolation? d.toJson = none ∧ Diagram.load d.toJson = .ok d ∧
            Diagram.ofJson d.toJson = .ok d := by
  refine ⟨fun d hends hwhole o written sheet spoken => ⟨⟨d, []⟩, ?_, rfl, rfl, rfl⟩, fun v hv => ?_⟩
  · show (Diagram.read d.toJson.print).map _ = _
    rw [Diagram.read_print hends hwhole]
    rfl
  · obtain ⟨d, hd⟩ := Diagram.firstViolation?_eq_none_iff.mp hv
    have hagain := Diagram.load_toJson_of_load hd
    exact ⟨d, hd, Diagram.ofJson_of_load hd, Diagram.firstViolation?_eq_none_iff.mpr ⟨d, hagain⟩, hagain,
      Diagram.ofJson_of_load hagain⟩

/-- A diagram with names that do not print as they are. -/
def foreign : Diagram where
  tables :=
    [{ id := "", name := "Größe \"😀\"\\", position := ⟨.int (-20), .int 0⟩,
       columns := [{ id := "c", name := "id\n\x00", type := .int }] },
      { id := "p-1", name := "名前", position := ⟨.int 300, .int 1000⟩,
        columns := [{ id := "c", name := "\\u00e9", type := .blob, constraints := { isUnique := true } }] }]
  relationships := [⟨"r", .oneToOne, ⟨"", "c"⟩, ⟨"p-1", "c"⟩⟩]

/-- A document with flags that are no truth values, and a position that is no whole number. -/
def loose : Json :=
  .obj [("tables", .arr [.obj [("id", .str "t"), ("name", .str "a"),
      ("position", .obj [("x", .float (.infinite true)), ("y", .int 7)]),
      ("columns", .arr [.obj [("id", .str "c"), ("name", .str "b"), ("type", .str "UUID"),
        ("constraints", .obj [("isUnique", .str "no"), ("isNullable", .arr []), ("isPrimaryKey", .null)])]])]]),
    ("relationships", .arr []), ("comment", .int 1)]

theorem stored_foreign :
    foreign.danglingFault? = none ∧ (∀ t ∈ foreign.tables, t.position.IsWhole) ∧
      (∃ r, InputFormat.document.read {} .mysql (OutputFormat.document.write {} .sqlite foreign) = .ok r ∧
        r.diagram = foreign) ∧
      Diagram.firstViolation? loose = none ∧
        ∃ d, Diagram.load loose = .ok d ∧ Diagram.load d.toJson = .ok d := by
  have hends : foreign.danglingFault? = none := rfl
  have hwhole : ∀ t ∈ foreign.tables, t.position.IsWhole := by
    intro t ht
    simp only [foreign, List.mem_cons, List.not_mem_nil, or_false] at ht
    rcases ht with rfl | rfl
    · exact ⟨-20, 0, rfl⟩
    · exact ⟨300, 1000, rfl⟩
  obtain ⟨r, hr, hd, -⟩ := stored.1 foreign hends hwhole {} .sqlite {} .mysql
  obtain ⟨d, hload, -, -, hagain, -⟩ := stored.2 loose rfl
  exact ⟨hends, hwhole, ⟨r, hr, hd⟩, rfl, d, hload, hagain⟩

end Erd
