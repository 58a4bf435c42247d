import Erd.Diagram.Loading
import Erd.Proofs.Outline

/-!
# What validation promises

An end of a relationship names a table and a column by id. Validation looks the table up from the end of the
list and resolution from the front, so being there is told here of a way to look tables up. Where the ids of
tables do not repeat both ways find the same table and what is valid is intact, whatever the ids of columns.
Where they do, one table can hide another: a valid diagram can hold a relationship that does not resolve.

**Results.**
* `Diagram.isSome_resolve_iff`: a relationship resolves if the first tables with its ids have its columns.
* `Diagram.load_eq_ok_iff`: a document is loaded if the last tables with its ids have its columns.
* `Diagram.resolve_of_valid`: what a valid document promises about resolution.
* `Diagram.not_intact_hidden`: a valid document with a relationship that does not resolve.
-/
namespace Erd

/-! ## Being there -/

/-- The table of an end is found and has its column. -/
def Endpoint.IsIn (find : String → Option Table) (e : Endpoint) : Prop :=
  ∃ t ∈ find e.table, e.column ∈ t.columns.map Column.id

instance (find : String → Option Table) (e : Endpoint) : Decidable (e.IsIn find) :=
  inferInstanceAs (Decidable (∃ t ∈ find e.table, e.column ∈ t.columns.map Column.id))

/-- Both ends of a relationship are there. -/
def Relationship.IsIn (find : String → Option Table) (r : Relationship) : Prop :=
  r.source.IsIn find ∧ r.target.IsIn find

instance (find : String → Option Table) (r : Relationship) : Decidable (r.IsIn find) :=
  inferInstanceAs (Decidable (r.source.IsIn find ∧ r.target.IsIn find))

theorem Table.isSome_column?_iff {t : Table} {id : String} :
    (t.column? id).isSome ↔ id ∈ t.columns.map Column.id := by
  simp [Table.column?, List.find?_isSome]

namespace Diagram

variable {d : Diagram} {r : Relationship}

/-! ## Resolution -/

theorem isSome_endpoint?_iff {e : Endpoint} : (d.endpoint? e).isSome ↔ e.IsIn d.table? := by
  unfold endpoint? Endpoint.IsIn
  cases d.table? e.table with
  | none => simp
  | some t => simp [Table.isSome_column?_iff]

/-- A relationship resolves exactly if the first tables with its ids have its columns. -/
theorem isSome_resolve_iff : (d.resolve r).isSome ↔ r.IsIn d.table? := by
  rw [Relationship.IsIn, ← isSome_endpoint?_iff, ← isSome_endpoint?_iff, resolve]
  cases d.endpoint? r.source with
  | none => simp
  | some s => simp

/-! ## Validation -/

theorem endFault?_eq_none_iff (r : Relationship) (side : Side) {e : Endpoint} :
    d.endFault? r side e = none ↔ e.IsIn d.lastTable? := by
  unfold endFault? Endpoint.IsIn
  cases d.lastTable? e.table with
  | none => simp
  | some t => simp

theorem relationshipFault?_eq_none_iff : d.relationshipFault? r = none ↔ r.IsIn d.lastTable? := by
  rw [Relationship.IsIn, ← endFault?_eq_none_iff r .source, ← endFault?_eq_none_iff r .target,
    relationshipFault?]
  cases d.endFault? r .source r.source with
  | none => simp
  | some fault => simp

theorem danglingFault?_eq_none_iff :
    d.danglingFault? = none ↔ ∀ r ∈ d.relationships, r.IsIn d.lastTable? := by
  simp only [danglingFault?, List.findSome?_eq_none_iff, relationshipFault?_eq_none_iff]

/-- A document is loaded exactly if it has the shape of a diagram and the last tables with the ids of a
relationship have its columns. -/
theorem load_eq_ok_iff {v : Json} :
    load v = .ok d ↔ Loading.diagram v = .ok d ∧ ∀ r ∈ d.relationships, r.IsIn d.lastTable? := by
  unfold load
  cases Loading.diagram v with
  | error fault => simp
  | ok g =>
    simp only [Except.ok.injEq]
    constructor
    · intro h
      split at h
      · cases h
      · next hg =>
        cases h
        exact ⟨rfl, danglingFault?_eq_none_iff.mp hg⟩
    · rintro ⟨rfl, hr⟩
      rw [danglingFault?_eq_none_iff.mpr hr]

theorem firstViolation?_eq_none_iff {v : Json} : firstViolation? v = none ↔ ∃ d, load v = .ok d := by
  unfold firstViolation?
  cases load v with
  | error fault => simp
  | ok d => simp

/-! ## Both -/

/-- Where ids do not repeat, from the front and from the end the same table is found. -/
theorem lastTable?_eq_table? (h : (d.tables.map Table.id).Nodup) : d.lastTable? = d.table? :=
  funext fun id => find?_reverse_of_nodup h id

/-- A valid document is loaded, and the last tables with the ids of a relationship have its columns. It
resolves exactly if the first tables with those ids have them too, and so all do where the ids of tables do not
repeat. -/
theorem resolve_of_valid {v : Json} (h : firstViolation? v = none) :
    ∃ d, load v = .ok d ∧
      (∀ r ∈ d.relationships, r.IsIn d.lastTable? ∧ ((d.resolve r).isSome ↔ r.IsIn d.table?)) ∧
      ((d.tables.map Table.id).Nodup → d.Intact) := by
  obtain ⟨d, hd⟩ := firstViolation?_eq_none_iff.mp h
  obtain ⟨-, hlast⟩ := load_eq_ok_iff.mp hd
  refine ⟨d, hd, fun r hr => ⟨hlast r hr, isSome_resolve_iff⟩, fun hn r hr => ?_⟩
  rw [isSome_resolve_iff, ← lastTable?_eq_table? hn]
  exact hlast r hr

/-- Two tables of one id, the first of which hides the column that a relationship leads from. -/
def hidden : Diagram where
  tables :=
    [{ id := "u", name := "users" },
      { id := "u", name := "users", columns := [{ id := "c", name := "id", type := .int }] },
      { id := "p", name := "posts", columns := [{ id := "d", name := "user_id", type := .int }] }]
  relationships := [⟨"r", .oneToMany, ⟨"u", "c"⟩, ⟨"p", "d"⟩⟩]

/-- The document is valid and is loaded, but its relationship does not resolve. -/
theorem not_intact_hidden :
    firstViolation? hidden.toJson = none ∧ load hidden.toJson = .ok hidden ∧ ¬ hidden.Intact := by
  refine ⟨rfl, rfl, fun h => ?_⟩
  have := h ⟨"r", .oneToMany, ⟨"u", "c"⟩, ⟨"p", "d"⟩⟩ (List.mem_singleton.mpr rfl)
  exact absurd this (by decide)

/-- Two columns of one id, which hide nothing from a relationship. -/
def twins : Diagram where
  tables :=
    [{ id := "u", name := "users",
       columns := [{ id := "c", name := "id", type := .int }, { id := "c", name := "name", type := .text }] },
      { id := "p", name := "posts", columns := [{ id := "d", name := "user_id", type := .int }] }]
  relationships := [⟨"r", .oneToMany, ⟨"u", "c"⟩, ⟨"p", "d"⟩⟩]

theorem resolve_of_valid_twins :
    firstViolation? twins.toJson = none ∧ (twins.tables.map Table.id).Nodup ∧
      ∃ d, load twins.toJson = .ok d ∧
        (∀ r ∈ d.relationships, r.IsIn d.lastTable? ∧ ((d.resolve r).isSome ↔ r.IsIn d.table?)) ∧
        d.Intact := by
  have hn : (twins.tables.map Table.id).Nodup := by decide
  obtain ⟨d, hd, hr, hi⟩ := resolve_of_valid (v := twins.toJson) rfl
  have htwins : load twins.toJson = .ok twins := rfl
  rw [htwins] at hd
  cases hd
  exact ⟨rfl, hn, twins, htwins, hr, hi hn⟩

end Diagram

end Erd
