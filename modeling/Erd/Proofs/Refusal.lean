import Erd.Proofs.Shapes
import Erd.Proofs.Building
import Erd.Proofs.Loading

/-!
# Why an untrusted document is refused

A document of the declared shape says what a diagram is, part by part: ids, names, types, coordinates, ends and the
order of all of them. Its flags may be any values and are told by their truth. The ends of relationships are looked
at only in such a document, against the last table with an id.

A document is refused for its first fault, or else for the first relationship with an end that is not there. Every
other one is built, without a second look at its parts, and building it never comes to a part that is missing, of
the wrong kind or unknown.

**Results.**
* `Loading.tells_column`, `Loading.tells_table` and the like: each strict reader reads what the document says.
* `Diagram.danglingFault?_eq_some_iff`: the relationship that a document of the right shape is refused for.
* `Diagram.refused_settled`: when a document is refused and for what, and what is built of every other one.
-/
namespace Erd

/-! ## What a document says -/

/-- The value is an object that has a value under a key. -/
def Json.Has (v : Json) (key : String) (w : Json) : Prop := ∃ fs, v = .obj fs ∧ Json.get? key fs = some w

theorem Json.has_obj {fs : List (String × Json)} {key : String} {w : Json} :
    (Json.obj fs).Has key w ↔ Json.get? key fs = some w := by
  simp [Json.Has]

/-- What a value says of a position: two numbers, kept as they stand. -/
structure Position.Told (v : Json) (p : Position) : Prop where
  x : v.Has "x" p.x
  y : v.Has "y" p.y
  x_number : p.x.IsNumber
  y_number : p.y.IsNumber

/-- What a value says of a column. Of its flags only the truth is told. -/
structure Column.Told (v : Json) (c : Column) : Prop where
  id : v.Has "id" (.str c.id)
  name : v.Has "name" (.str c.name)
  type : v.Has "type" (.str c.type.name)
  constraints : ∃ flags, v.Has "constraints" (.obj flags) ∧ c.constraints = .ofFields flags

/-- What a value says of a table, column by column. -/
structure Table.Told (v : Json) (t : Table) : Prop where
  id : v.Has "id" (.str t.id)
  name : v.Has "name" (.str t.name)
  position : ∃ w, v.Has "position" w ∧ t.position.Told w
  columns : ∃ ws, v.Has "columns" (.arr ws) ∧ List.Forall₂ Column.Told ws t.columns

/-- What a value says of a relationship. -/
structure Relationship.Told (v : Json) (r : Relationship) : Prop where
  id : v.Has "id" (.str r.id)
  cardinality : v.Has "relationType" (.str r.cardinality.tag)
  sourceTable : v.Has "sourceTableId" (.str r.source.table)
  sourceColumn : v.Has "sourceColumnId" (.str r.source.column)
  targetTable : v.Has "targetTableId" (.str r.target.table)
  targetColumn : v.Has "targetColumnId" (.str r.target.column)

/-- What a document says of a diagram, table by table and relationship by relationship. -/
structure Diagram.Told (v : Json) (d : Diagram) : Prop where
  tables : ∃ ws, v.Has "tables" (.arr ws) ∧ List.Forall₂ Table.Told ws d.tables
  relationships : ∃ ws, v.Has "relationships" (.arr ws) ∧ List.Forall₂ Relationship.Told ws d.relationships

namespace Loading

section Tells

variable {α : Type} {r : Reader α} {R : Json → α → Prop}

/-- The reader reads what a value says, at every path. -/
def Tells (r : Reader α) (R : Json → α → Prop) : Prop := ∀ path v a, r path v = .ok a ↔ R v a

theorem field_eq_ok_iff (hr : Tells r R) {key : String} {path : List PathPart} {fs : List (String × Json)} {a : α} :
    field r key path fs = .ok a ↔ ∃ v, (Json.obj fs).Has key v ∧ R v a := by
  simp only [Json.has_obj, ← hr (path ++ [.key key])]
  exact ⟨exists_of_field, fun ⟨v, hv, ha⟩ => field_eq hv ha⟩

theorem itemsFrom_eq_ok_iff (hr : Tells r R) {path : List PathPart} {i : Nat} {vs : List Json} {as : List α} :
    itemsFrom r path i vs = .ok as ↔ List.Forall₂ R vs as := by
  induction vs generalizing i as with
  | nil => cases as <;> simp [itemsFrom]
  | cons v vs ih =>
    rw [itemsFrom, List.forall₂_cons_left_iff]
    simp only [← hr (path ++ [.index i]), ← ih (i := i + 1)]
    cases r (path ++ [.index i]) v with
    | error e => simp
    | ok a =>
      cases itemsFrom r path (i + 1) vs with
      | error e => simp
      | ok bs => simp [eq_comm]

theorem tells_list (hr : Tells r R) : Tells (list r) fun v as => ∃ vs, v = .arr vs ∧ List.Forall₂ R vs as := by
  intro path v as
  cases v with
  | arr vs => simpa [list] using itemsFrom_eq_ok_iff hr
  | _ => simp [list]

end Tells

theorem tells_text : Tells text fun v s => v = .str s := by
  intro path v s
  cases v <;> simp [text]

theorem tells_object : Tells object fun v fs => v = .obj fs := by
  intro path v fs
  cases v <;> simp [object]

theorem tells_number : Tells number fun v n => v = n ∧ n.IsNumber := by
  intro path v n
  constructor
  · intro h
    have hn := number_eq_ok h
    subst hn
    cases n with
    | int n => exact ⟨rfl, trivial⟩
    | float x => exact ⟨rfl, trivial⟩
    | _ => cases h
  · rintro ⟨rfl, hn⟩
    cases v with
    | int n => rfl
    | float x => rfl
    | _ => cases hn

theorem tells_columnType : Tells columnType fun v t => v = .str t.name := by
  intro path v t
  constructor
  · intro h
    obtain ⟨s, rfl, hs⟩ := named_of_columnType h
    unfold ColumnType.named at hs
    split at hs
    · next u hu =>
      cases hs
      have hname := List.find?_some hu
      rw [beq_iff_eq.mp hname]
    · cases hs
  · rintro rfl
    exact columnType_name path t

theorem tells_cardinality : Tells cardinality fun v c => v = .str c.tag := by
  intro path v c
  constructor
  · intro h
    obtain ⟨s, rfl, hs⟩ := tagged_of_cardinality h
    unfold Cardinality.tagged at hs
    split at hs
    · next u hu =>
      cases hs
      have htag := List.find?_some hu
      rw [beq_iff_eq.mp htag]
    · cases hs
  · rintro rfl
    exact cardinality_tag path c

/-! ## Parts -/

/-- A part is read from the fields of an object. -/
theorem partFields_eq_ok_iff {p : DocumentPart} {path : List PathPart} {v : Json} {fs : List (String × Json)} :
    partFields p path v = .ok fs ↔ v = .obj fs := by
  cases v <;> simp [partFields]

theorem tells_position : Tells position fun v p => p.Told v := by
  intro path v p
  simp only [position, partFields_eq_ok_iff, Except.bind_eq_ok, field_eq_ok_iff tells_number]
  constructor
  · rintro ⟨fs, rfl, x, ⟨_, hx, rfl, hxn⟩, y, ⟨_, hy, rfl, hyn⟩, h⟩
    cases h
    exact ⟨hx, hy, hxn, hyn⟩
  · intro h
    obtain ⟨fs, rfl, -⟩ := h.x
    exact ⟨fs, rfl, p.x, ⟨_, h.x, rfl, h.x_number⟩, p.y, ⟨_, h.y, rfl, h.y_number⟩, rfl⟩

theorem tells_column : Tells column fun v c => c.Told v := by
  intro path v c
  simp only [column, partFields_eq_ok_iff, Except.bind_eq_ok, field_eq_ok_iff tells_text,
    field_eq_ok_iff tells_columnType, field_eq_ok_iff tells_object]
  constructor
  · rintro ⟨fs, rfl, id, ⟨_, hid, rfl⟩, name, ⟨_, hname, rfl⟩, type, ⟨_, htype, rfl⟩, flags, ⟨_, hflags, rfl⟩, h⟩
    cases h
    exact ⟨hid, hname, htype, flags, hflags, rfl⟩
  · intro h
    obtain ⟨fs, rfl, -⟩ := h.id
    obtain ⟨flags, hflags, hconstraints⟩ := h.constraints
    refine ⟨fs, rfl, c.id, ⟨_, h.id, rfl⟩, c.name, ⟨_, h.name, rfl⟩, c.type, ⟨_, h.type, rfl⟩, flags,
      ⟨_, hflags, rfl⟩, ?_⟩
    rw [← hconstraints]
    rfl

theorem tells_table : Tells table fun v t => t.Told v := by
  intro path v t
  simp only [table, partFields_eq_ok_iff, Except.bind_eq_ok, field_eq_ok_iff tells_text,
    field_eq_ok_iff tells_position, field_eq_ok_iff (tells_list tells_column)]
  constructor
  · rintro ⟨fs, rfl, id, ⟨_, hid, rfl⟩, name, ⟨_, hname, rfl⟩, place, ⟨w, hw, hplace⟩, columns,
      ⟨_, hcolumns, ws, rfl, hws⟩, h⟩
    cases h
    exact ⟨hid, hname, ⟨w, hw, hplace⟩, ws, hcolumns, hws⟩
  · intro h
    obtain ⟨fs, rfl, -⟩ := h.id
    obtain ⟨w, hw, hplace⟩ := h.position
    obtain ⟨ws, hcolumns, hws⟩ := h.columns
    exact ⟨fs, rfl, t.id, ⟨_, h.id, rfl⟩, t.name, ⟨_, h.name, rfl⟩, t.position, ⟨w, hw, hplace⟩, t.columns,
      ⟨_, hcolumns, ws, rfl, hws⟩, rfl⟩

theorem tells_relationship : Tells relationship fun v r => r.Told v := by
  intro path v r
  simp only [relationship, partFields_eq_ok_iff, Except.bind_eq_ok, field_eq_ok_iff tells_text,
    field_eq_ok_iff tells_cardinality]
  constructor
  · rintro ⟨fs, rfl, id, ⟨_, hid, rfl⟩, cardinality, ⟨_, hcardinality, rfl⟩, st, ⟨_, hst, rfl⟩, sc, ⟨_, hsc, rfl⟩,
      tt, ⟨_, htt, rfl⟩, tc, ⟨_, htc, rfl⟩, h⟩
    cases h
    exact ⟨hid, hcardinality, hst, hsc, htt, htc⟩
  · intro h
    obtain ⟨fs, rfl, -⟩ := h.id
    exact ⟨fs, rfl, r.id, ⟨_, h.id, rfl⟩, r.cardinality, ⟨_, h.cardinality, rfl⟩, r.source.table,
      ⟨_, h.sourceTable, rfl⟩, r.source.column, ⟨_, h.sourceColumn, rfl⟩, r.target.table, ⟨_, h.targetTable, rfl⟩,
      r.target.column, ⟨_, h.targetColumn, rfl⟩, rfl⟩

/-- The shape of a document is read exactly as what the document says. -/
theorem diagram_eq_ok_iff {v : Json} {d : Diagram} : diagram v = .ok d ↔ d.Told v := by
  constructor
  · intro h
    cases v with
    | obj fs =>
      simp only [diagram, Except.bind_eq_ok, field_eq_ok_iff (tells_list tells_table),
        field_eq_ok_iff (tells_list tells_relationship)] at h
      obtain ⟨ts, ⟨_, hts, ws, rfl, hws⟩, rs, ⟨_, hrs, us, rfl, hus⟩, h⟩ := h
      cases h
      exact ⟨⟨ws, hts, hws⟩, us, hrs, hus⟩
    | _ => cases h
  · rintro ⟨⟨ws, hts, hws⟩, us, hrs, hus⟩
    obtain ⟨fs, rfl, -⟩ := id hts
    simp only [diagram, Except.bind_eq_ok, field_eq_ok_iff (tells_list tells_table),
      field_eq_ok_iff (tells_list tells_relationship)]
    exact ⟨d.tables, ⟨_, hts, ws, rfl, hws⟩, d.relationships, ⟨_, hrs, us, rfl, hus⟩, rfl⟩

end Loading

/-! ## Ends that are not there -/

/-- What is missing at an end: its table, or else its column in that table. -/
inductive Endpoint.Lacks (find : String → Option Table) (relationship : String) (side : Side) (e : Endpoint) :
    Violation → Prop where
  | table (h : find e.table = none) : Lacks find relationship side e (.unknownTable relationship side e.table)
  | column {t : Table} (ht : find e.table = some t) (h : e.column ∉ t.columns.map Column.id) :
    Lacks find relationship side e (.unknownColumn relationship side e.column)

/-- What a relationship is refused for: what its source lacks, or else what its target lacks. -/
inductive Relationship.Lacks (find : String → Option Table) (r : Relationship) : Violation → Prop where
  | source {f : Violation} (h : r.source.Lacks find r.id .source f) : Lacks find r f
  | target {f : Violation} (hs : r.source.IsIn find) (h : r.target.Lacks find r.id .target f) : Lacks find r f

namespace Diagram

variable {d : Diagram} {r : Relationship} {f : Violation}

theorem endFault?_eq_some_iff {side : Side} {e : Endpoint} :
    d.endFault? r side e = some f ↔ e.Lacks d.lastTable? r.id side f := by
  unfold endFault?
  constructor
  · intro h
    split at h
    · next ht =>
      cases h
      exact .table ht
    · next t ht =>
      split at h
      · cases h
      · next hc =>
        cases h
        exact .column ht (by simpa using hc)
  · intro h
    cases h with
    | table ht => rw [ht]
    | @column t ht hc =>
      rw [ht]
      simpa using hc

theorem relationshipFault?_eq_some_iff : d.relationshipFault? r = some f ↔ r.Lacks d.lastTable? f := by
  unfold relationshipFault?
  constructor
  · intro h
    cases hs : d.endFault? r .source r.source with
    | some g =>
      rw [hs] at h
      cases h
      exact .source (endFault?_eq_some_iff.mp hs)
    | none =>
      rw [hs] at h
      exact .target ((endFault?_eq_none_iff r .source).mp hs) (endFault?_eq_some_iff.mp h)
  · intro h
    cases h with
    | source hs => rw [endFault?_eq_some_iff.mpr hs]
    | target hs ht => rw [(endFault?_eq_none_iff r .source).mpr hs, endFault?_eq_some_iff.mpr ht]

/-- The first relationship that lacks something, with all ends of those before it in place. -/
theorem danglingFault?_eq_some_iff :
    d.danglingFault? = some f ↔ ∃ before r after, d.relationships = before ++ r :: after ∧
      r.Lacks d.lastTable? f ∧ ∀ q ∈ before, q.IsIn d.lastTable? := by
  simp only [danglingFault?, List.findSome?_eq_some_iff, relationshipFault?_eq_some_iff,
    relationshipFault?_eq_none_iff]

/-! ## Checking and building -/

/-- Why a document gives no diagram: the check refuses it, or building it comes to a part that the check should
have refused. -/
inductive LoadFailure where
  | refused (f : Violation)
  | unforeseen (e : DocumentError)

/-- Checks a document, and then builds the diagram without looking at its parts again. -/
def checked (v : Json) : Except LoadFailure Diagram :=
  match firstViolation? v with
  | some f => .error (.refused f)
  | none => (ofJson v).mapError .unforeseen

/-- What a document is refused for. -/
inductive RefusedFor (v : Json) : Violation → Prop where
  | notAnObject (h : ∀ fs, v ≠ .obj fs) : RefusedFor v .notAnObject
  /-- The first of the faults that it has against the declared shape. -/
  | misshapen {fs : List (String × Json)} {f : Violation} (hv : v = .obj fs)
      (h : (fieldFaults documentFields [] fs).head? = some f) : RefusedFor v f
  /-- What the first relationship lacks that lacks something. -/
  | dangling {d : Diagram} {before after : List Relationship} {r : Relationship} {f : Violation} (hd : d.Told v)
      (hr : d.relationships = before ++ r :: after) (hbefore : ∀ q ∈ before, q.IsIn d.lastTable?)
      (h : r.Lacks d.lastTable? f) : RefusedFor v f

theorem load_eq_error_iff {v : Json} : load v = .error f ↔ RefusedFor v f := by
  unfold load
  constructor
  · intro h
    cases hv : Loading.diagram v with
    | ok d =>
      simp only [hv] at h
      split at h
      · next g hg =>
        cases h
        obtain ⟨before, r, after, hr, hlacks, hbefore⟩ := danglingFault?_eq_some_iff.mp hg
        exact .dangling (Loading.diagram_eq_ok_iff.mp hv) hr hbefore hlacks
      · cases h
    | error g =>
      simp only [hv, Except.error.injEq] at h
      subst h
      cases v with
      | obj fs => exact .misshapen rfl (by rw [← Loading.fault?_diagram, hv, fault?])
      | _ =>
        cases hv
        exact .notAnObject (by simp)
  · intro h
    cases h with
    | notAnObject h =>
      cases v with
      | obj fs => exact absurd rfl (h fs)
      | _ => rfl
    | misshapen hv h =>
      rw [← Loading.fault?_diagram, fault?_eq_some_iff] at h
      rw [hv, h]
    | dangling hd hr hbefore hlacks =>
      rw [Loading.diagram_eq_ok_iff.mpr hd]
      simp only [danglingFault?_eq_some_iff.mpr ⟨_, _, _, hr, hlacks, hbefore⟩]

/-- Where something is lacking an end is not there. -/
theorem exists_lacks_iff : (∃ f, r.Lacks d.lastTable? f) ↔ ¬ r.IsIn d.lastTable? := by
  rw [← relationshipFault?_eq_none_iff]
  simp only [← relationshipFault?_eq_some_iff]
  cases d.relationshipFault? r <;> simp

/-- A document is refused exactly if it is no object, has not the declared shape, or tells of a relationship with an
end that is not there. -/
theorem exists_refusedFor_iff {v : Json} :
    (∃ f, RefusedFor v f) ↔ (∀ fs, v ≠ .obj fs) ∨ (∃ fs, v = .obj fs ∧ ¬ FieldsFit documentFields fs) ∨
      ∃ d : Diagram, d.Told v ∧ ∃ r ∈ d.relationships, ¬ r.IsIn d.lastTable? := by
  constructor
  · rintro ⟨f, h⟩
    cases h with
    | notAnObject h => exact .inl h
    | misshapen hv h =>
      refine .inr (.inl ⟨_, hv, fun hfit => ?_⟩)
      rw [(fieldFaults_eq_nil_iff [] _ documentFields).mpr hfit] at h
      cases h
    | @dangling d before after r f hd hr _ h =>
      exact .inr (.inr ⟨d, hd, r, by simp [hr], exists_lacks_iff.mp ⟨f, h⟩⟩)
  · rintro (h | ⟨fs, hv, hfit⟩ | ⟨d, hd, r, hr, h⟩)
    · exact ⟨_, .notAnObject h⟩
    · rw [← fieldFaults_eq_nil_iff [] fs] at hfit
      obtain ⟨f, hf⟩ := Option.isSome_iff_exists.mp (List.isSome_head?.mpr hfit)
      exact ⟨f, .misshapen hv hf⟩
    · -- The first relationship with such an end may stand before this one.
      cases hf : d.danglingFault? with
      | none => exact absurd (danglingFault?_eq_none_iff.mp hf r hr) h
      | some f =>
        obtain ⟨before, q, after, hq, hlacks, hbefore⟩ := danglingFault?_eq_some_iff.mp hf
        exact ⟨f, .dangling hd hq hbefore hlacks⟩

/-- The check as it is done first is the one that loading makes, and building follows it. -/
theorem checked_eq (v : Json) : checked v = (load v).mapError .refused := by
  unfold checked firstViolation?
  cases hv : load v with
  | error f => rfl
  | ok d =>
    simp only [ofJson_of_load hv]
    rfl

/-- A document is checked and then built. It is refused, for the same violation that the check alone finds,
exactly if it is no object, has not the declared shape, or has a relationship with an end that is not in the last
table of its id. It is refused for its first fault, or else for the first thing that the first such relationship
lacks. From every other document the diagram is built that the document tells of, and building one never fails. -/
theorem refused_settled (v : Json) :
    (∀ f, checked v = .error (.refused f) ↔ RefusedFor v f) ∧
    (∀ f, firstViolation? v = some f ↔ RefusedFor v f) ∧
    ((∃ f, RefusedFor v f) ↔ (∀ fs, v ≠ .obj fs) ∨ (∃ fs, v = .obj fs ∧ ¬ FieldsFit documentFields fs) ∨
      ∃ d : Diagram, d.Told v ∧ ∃ r ∈ d.relationships, ¬ r.IsIn d.lastTable?) ∧
    (∀ d, checked v = .ok d ↔ d.Told v ∧ ∀ r ∈ d.relationships, r.IsIn d.lastTable?) ∧
    ∀ e, checked v ≠ .error (.unforeseen e) := by
  have hload (d : Diagram) : load v = .ok d ↔ d.Told v ∧ ∀ r ∈ d.relationships, r.IsIn d.lastTable? := by
    rw [load_eq_ok_iff, Loading.diagram_eq_ok_iff]
  have hrefused (f : Violation) : load v = .error f ↔ RefusedFor v f := load_eq_error_iff
  refine ⟨fun f => ?_, fun f => ?_, exists_refusedFor_iff, fun d => ?_, fun e => ?_⟩
  · rw [← hrefused, checked_eq]
    cases load v <;> simp [Except.mapError]
  · rw [← hrefused, firstViolation?]
    cases load v <;> simp
  · rw [← hload, checked_eq]
    cases load v <;> simp [Except.mapError]
  · rw [checked_eq]
    cases load v <;> simp [Except.mapError]

/-- A truth value for a coordinate is reported before an end without a table, though both are there. -/
example :
    firstViolation? (.obj [
      ("relationships", .arr [.obj [("id", .str "r"), ("relationType", .str "1:N"), ("sourceTableId", .str "gone"),
        ("sourceColumnId", .str "c"), ("targetTableId", .str "t"), ("targetColumnId", .str "c")]]),
      ("tables", .arr [.obj [("id", .str "t"), ("name", .str "users"), ("columns", .arr []),
        ("position", .obj [("x", .bool true), ("y", .int 0)])]])]) =
      some (.shape [.key "tables", .index 0, .key "position", .key "x", .key "int"] .number) := by
  decide

end Diagram

end Erd
