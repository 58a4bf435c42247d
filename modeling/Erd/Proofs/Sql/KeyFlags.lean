import Erd.Proofs.Sql.Cardinality

/-!
# Columns marked as foreign keys

A column is marked as a foreign key on two ways. One with a reference among its own settings is marked as it is read,
wherever that reference leads. One that a foreign key of the table names is marked when the foreign key is linked, and
so only if that leads somewhere. Where all foreign keys of tables lead somewhere and no two columns of a table share
a name, the columns that are marked are those that foreign keys name.

**Results.**
* `child_keyEnds?`: the column that a foreign key with both its ends stands for.
* `isForeignKey_drawnColumn`: what marks a column.
* `key_flags`: the columns that are marked, and when they are those that foreign keys name.
* `not_recorded_orphan`: a foreign key that leads nowhere and marks nothing.
-/
namespace Erd.Sql

open Text

/-! ## Flags of own definitions -/

/-- The column refers to a table among its own settings. -/
def TableDefinition.RefersInline (t : TableDefinition) (j : Nat) : Prop :=
  ∃ c r, (t.definitions.filterMap Definition.column?)[j]? = some c ∧ c.reference = some r

/-- Keys and unique constraints make no column a foreign key. -/
theorem isForeignKey_columns {t : TableDefinition} {j : Nat} {c : Outline.Column} (h : t.columns[j]? = some c) :
    c.constraints.isForeignKey = true ↔ t.RefersInline j := by
  rw [TableDefinition.getElem?_columns, TableDefinition.ownColumns, List.getElem?_map] at h
  cases hown : (t.definitions.filterMap Definition.column?)[j]? with
  | none =>
    rw [hown] at h
    cases h
  | some own =>
    rw [hown, Option.map_some, Option.map_some, Option.some.injEq] at h
    have hflag : c.constraints.isForeignKey = own.reference.isSome := by
      rw [← h]
      by_cases hunique : t.AloneUnique j <;> by_cases hkey : t.InPrimaryKey j <;>
        simp [hunique, hkey, markUnique, markPrimaryKey, ColumnDefinition.outline]
    rw [hflag, Option.isSome_iff_exists]
    constructor
    · rintro ⟨r, hr⟩
      exact ⟨own, r, hown, hr⟩
    · rintro ⟨c, r, hc, hr⟩
      obtain rfl := Option.some.inj (hown.symm.trans hc)
      exact ⟨r, hr⟩

/-! ## Flags of links -/

section Draw

variable {ts : List TableDefinition} {s : Outline.Sheet} {i : Nat} {t : TableDefinition}

/-- The column that a foreign key with both its ends stands for is the one that it leads from. -/
theorem child_keyEnds? (ht : ts[i]? = some t) (r : Reference) :
    (((outline ts).draw s).keyEnds? i r).map KeyEnds.child =
      (tie? (ts.map TableDefinition.outline) t.outline r).bind fun x =>
        (t.outline.columns[x.child]?).map (drawnColumn ts s i x.child) := by
  rw [Diagram.keyEnds?, lastNamed?_draw, getElem?_tables_draw ht, tie?, tableFound?]
  cases Outline.tableNamed? (ts.map TableDefinition.outline) r.table with
  | none => rfl
  | some p =>
    obtain ⟨k, referenced⟩ := p
    simp only [Option.map_some, Option.bind_some, columnNamed?_drawnTable, columnFound?]
    cases hparent : referenced.columnNamed? r.referenced with
    | none => rfl
    | some parent =>
      obtain ⟨c, hc, -⟩ := Outline.columnNamed?_eq_some hparent
      cases hchild : t.outline.columnNamed? r.column with
      | none => simp [hc]
      | some child =>
        obtain ⟨c', hc', -⟩ := Outline.columnNamed?_eq_some hchild
        simp [hc, hc']

theorem drawnColumn_inj {j k : Nat} {a b : Outline.Column} (h : drawnColumn ts s i j a = drawnColumn ts s i k b) :
    j = k := by
  have hid := congrArg Column.id h
  exact (Outline.Part.column.inj (s.ids.injective hid)).2

/-- A column is marked if it refers to a table among its own settings, or if a foreign key with both its ends stands
for it. -/
theorem isForeignKey_drawnColumn (ht : ts[i]? = some t) {j : Nat} {c : Outline.Column}
    (hc : t.outline.columns[j]? = some c) : (drawnColumn ts s i j c).constraints.isForeignKey = true ↔
      t.RefersInline j ∨ ∃ r ∈ t.references,
        (((outline ts).draw s).keyEnds? i r).map KeyEnds.child = some (drawnColumn ts s i j c) := by
  have hmarked : (((links ts).filterMap linked?).any fun l => l.target == ⟨i, j⟩) = true ↔
      ∃ r ∈ t.references,
        (((outline ts).draw s).keyEnds? i r).map KeyEnds.child = some (drawnColumn ts s i j c) := by
    rw [any_links ht, List.any_eq_true]
    refine exists_congr fun r => and_congr_right fun _ => ?_
    rw [child_keyEnds? ht]
    cases hx : tie? (ts.map TableDefinition.outline) t.outline r with
    | none => simp
    | some x =>
      obtain ⟨c', hc'⟩ := child_of_tie? hx
      rw [Option.any_some, beq_iff_eq, Option.bind_some, hc', Option.map_some, Option.some.injEq]
      constructor
      · rintro rfl
        rw [Option.some.inj (hc'.symm.trans hc)]
      · exact drawnColumn_inj
  rw [← isForeignKey_columns hc, ← hmarked, drawnColumn, Outline.Sheet.column]
  by_cases hany : (((links ts).filterMap linked?).any fun l => l.target == ⟨i, j⟩) = true
  · simp [hany, markForeignKey]
  · simp [hany]

end Draw

/-! ## Foreign keys of a table -/

/-- How the columns of a table of a diagram are marked: those that refer to a table among their own settings, and those
that a foreign key with both its ends stands for. -/
def KeyFlagged (d : Diagram) (i : Nat) (t : TableDefinition) (owner : Table) : Prop :=
  ∀ j child, owner.columns[j]? = some child → (child.constraints.isForeignKey = true ↔
    t.RefersInline j ∨ ∃ r ∈ t.references, (d.keyEnds? i r).map KeyEnds.child = some child)

/-- The columns that are marked are those that the foreign keys of their table name, wherever those lead. -/
def Recorded (t : TableDefinition) (owner : Table) : Prop :=
  ∀ child ∈ owner.columns, (child.constraints.isForeignKey = true ↔
    ∃ r ∈ t.references, owner.columnNamed? r.column = some child)

/-- The foreign keys of a table lead somewhere, and its columns with references are the first of their names. -/
structure Linkable (d : Diagram) (i : Nat) (t : TableDefinition) (owner : Table) : Prop where
  keys : ∀ r, .foreignKey r ∈ t.definitions → (owner.columnNamed? r.column).isSome → (d.keyEnds? i r).isSome
  first : ∀ j child, owner.columns[j]? = some child → t.RefersInline j → owner.columnNamed? child.name = some child

/-- A reference among the settings of a column is one of that column. -/
theorem column_of_inline {q : List Char × List Char} {c : ColumnDefinition} {r : Reference}
    (hc : c ∈ (tableOf q).definitions.filterMap Definition.column?) (hr : c.reference = some r) :
    r ∈ (tableOf q).references ∧ r.column = c.name := by
  constructor
  · obtain ⟨d, hd, hcolumn⟩ := List.mem_filterMap.mp hc
    refine List.mem_filterMap.mpr ⟨d, hd, ?_⟩
    cases d with
    | column e =>
      cases hcolumn
      exact hr
    | _ => cases hcolumn
  · obtain ⟨d, hd⟩ := exists_read_of_mem_columns hc
    obtain ⟨name, spelling, settings, -, rfl⟩ := declares_of_read hd
    obtain ⟨target, -, rfl⟩ := Option.map_eq_some_iff.mp hr
    rfl

theorem columnNamed?_of_keyEnds? {d : Diagram} {i : Nat} {owner : Table} (ho : d.tables[i]? = some owner)
    {r : Reference} {e : KeyEnds} (he : d.keyEnds? i r = some e) : owner.columnNamed? r.column = some e.child := by
  obtain ⟨_, -, he⟩ := Option.bind_eq_some_iff.mp he
  obtain ⟨_, -, he⟩ := Option.bind_eq_some_iff.mp he
  rw [ho, Option.bind_some] at he
  obtain ⟨child, hchild, rfl⟩ := Option.map_eq_some_iff.mp he
  exact hchild

section Table

variable {ts : List TableDefinition} {s : Outline.Sheet} {i : Nat} {q : List Char × List Char}

/-- The columns of a table of a diagram are called as they are defined. -/
theorem exists_drawn_column (ts : List TableDefinition) (s : Outline.Sheet) (i : Nat) {t : TableDefinition} {k : Nat}
    {c : ColumnDefinition} (hc : (t.definitions.filterMap Definition.column?)[k]? = some c) :
    ∃ child, (drawnTable ts s i t.outline).columns[k]? = some child ∧ child.name = c.name := by
  have hname : (t.columns.map (·.name))[k]? = some c.name := by
    rw [names_columns, TableDefinition.ownColumns, List.map_map, List.getElem?_map, hc]
    rfl
  rw [List.getElem?_map] at hname
  obtain ⟨o, ho, hname⟩ := Option.map_eq_some_iff.mp hname
  have ho : t.outline.columns[k]? = some o := ho
  exact ⟨drawnColumn ts s i k o, by rw [columns_drawnTable, List.getElem?_mapIdx, ho]; rfl,
    (name_drawnColumn i k o).trans hname⟩

theorem keyFlagged_draw {t : TableDefinition} (ht : ts[i]? = some t) :
    KeyFlagged ((outline ts).draw s) i t (drawnTable ts s i t.outline) := by
  intro j child hchild
  rw [columns_drawnTable, List.getElem?_mapIdx] at hchild
  obtain ⟨c, hc, rfl⟩ := Option.map_eq_some_iff.mp hchild
  exact isForeignKey_drawnColumn ht hc

theorem recorded_of_linkable (ht : ts[i]? = some (tableOf q))
    (h : Linkable ((outline ts).draw s) i (tableOf q) (drawnTable ts s i (tableOf q).outline)) :
    Recorded (tableOf q) (drawnTable ts s i (tableOf q).outline) := by
  have hflagged := keyFlagged_draw (s := s) ht
  have howner : ((outline ts).draw s).tables[i]? = some (drawnTable ts s i (tableOf q).outline) :=
    getElem?_tables_draw ht
  intro child hmem
  obtain ⟨j, hj⟩ := List.mem_iff_getElem?.mp hmem
  rw [hflagged j child hj]
  constructor
  · rintro (hinline | ⟨r, hr, hends⟩)
    · obtain ⟨c, r, hc, hcr⟩ := id hinline
      obtain ⟨hr, hcolumn⟩ := column_of_inline (List.mem_of_getElem? hc) hcr
      obtain ⟨child', hchild', hname⟩ := exists_drawn_column ts s i hc
      obtain rfl := Option.some.inj (hj.symm.trans hchild')
      exact ⟨r, hr, by rw [hcolumn, ← hname]; exact h.first j child hj hinline⟩
    · obtain ⟨e, he, rfl⟩ := Option.map_eq_some_iff.mp hends
      exact ⟨r, hr, columnNamed?_of_keyEnds? howner he⟩
  · rintro ⟨r, hr, hnamed⟩
    obtain ⟨d, hd, hdr⟩ := List.mem_filterMap.mp hr
    cases d with
    | column c =>
      have hc : c ∈ (tableOf q).definitions.filterMap Definition.column? := List.mem_filterMap.mpr ⟨_, hd, rfl⟩
      obtain ⟨k, hk⟩ := List.mem_iff_getElem?.mp hc
      obtain ⟨child', hchild', hname⟩ := exists_drawn_column ts s i hk
      have hinline : (tableOf q).RefersInline k := ⟨c, r, hk, hdr⟩
      have hfirst := h.first k child' hchild' hinline
      rw [hname, ← (column_of_inline hc hdr).2, hnamed] at hfirst
      obtain rfl := Option.some.inj hfirst
      exact (hflagged j child hj).mp ((hflagged k child hchild').mpr (.inl hinline))
    | foreignKey r' =>
      cases hdr
      obtain ⟨e, he⟩ := Option.isSome_iff_exists.mp (h.keys r hd (by rw [hnamed]; rfl))
      refine .inr ⟨r, hr, ?_⟩
      rw [he, Option.map_some, ← columnNamed?_of_keyEnds? howner he, hnamed]
    | _ => cases hdr

end Table

/-! ## Scripts -/

/-- A column is marked as a foreign key exactly if its own settings refer to a table or a foreign key with both its
ends stands for it. Where all foreign keys of a table lead somewhere and its columns with references are the first of
their names, its marked columns are those that its foreign keys name. -/
theorem key_flags {s : Outline.Sheet} (hs : s.grid.columns ≠ 0) (dialect : Dialect) (script : String) :
    ∃ r, read s dialect script = .ok r ∧ r.diagram.tables.length = (tablesOf script.toList).length ∧
      ∀ i t owner, (tablesOf script.toList)[i]? = some t → r.diagram.tables[i]? = some owner →
        KeyFlagged r.diagram i t owner ∧ (Linkable r.diagram i t owner → Recorded t owner) := by
  refine ⟨_, read_eq dialect script hs, by simp [tables_draw], fun i t owner ht ho => ?_⟩
  obtain rfl := Option.some.inj (ho.symm.trans (getElem?_tables_draw ht))
  have hmem := List.mem_of_getElem? ht
  rw [tablesOf_eq_bodies] at hmem
  obtain ⟨q, -, rfl⟩ := List.mem_map.mp hmem
  exact ⟨keyFlagged_draw ht, recorded_of_linkable ht⟩

/-- A script with a reference to a table that is not there, and a foreign key to one that is. -/
def crewScript : String :=
  "CREATE TABLE jobs (id INT);CREATE TABLE crew (hall INT REFERENCES halls(id), job INT, FOREIGN KEY (job) " ++
    "REFERENCES jobs(id))"

theorem key_flags_crew : ({} : Outline.Sheet).grid.columns ≠ 0 ∧ ∃ r, read {} .postgresql crewScript = .ok r ∧
    ∃ t owner, (tablesOf crewScript.toList)[1]? = some t ∧ r.diagram.tables[1]? = some owner ∧
      Linkable r.diagram 1 t owner ∧ KeyFlagged r.diagram 1 t owner ∧ Recorded t owner ∧
      owner.columns.map (fun c => c.constraints.isForeignKey) = [true, true] := by
  obtain ⟨r, hr, -, hflags⟩ := key_flags (s := {}) (by decide) .postgresql crewScript
  obtain rfl := Except.ok.inj (hr.symm.trans (read_eq .postgresql crewScript (by decide)))
  have hkeys : ((tablesOf crewScript.toList)[1]?.any fun t => t.definitions.all fun
      | .foreignKey r => (((outline (tablesOf crewScript.toList)).draw {}).keyEnds? 1 r).isSome
      | _ => true) = true := by decide +kernel
  have hcolumns : (((outline (tablesOf crewScript.toList)).draw {}).tables[1]?.any fun o =>
      (o.columns.all fun c => o.columnNamed? c.name == some c) &&
        o.columns.map (fun c => c.constraints.isForeignKey) == [true, true]) = true := by decide +kernel
  obtain ⟨t, ht, hkeys⟩ := (Option.any_eq_true _ _).mp hkeys
  have ho := getElem?_tables_draw (s := {}) ht
  rw [List.all_eq_true] at hkeys
  rw [ho, Option.any_some, Bool.and_eq_true, List.all_eq_true, beq_iff_eq] at hcolumns
  have hlinkable : Linkable ((outline (tablesOf crewScript.toList)).draw {}) 1 t
      (drawnTable (tablesOf crewScript.toList) {} 1 t.outline) :=
    ⟨fun r hr _ => by simpa only using hkeys _ hr,
      fun j child hj _ => by simpa using hcolumns.1 child (List.mem_of_getElem? hj)⟩
  obtain ⟨hflagged, hrecorded⟩ := hflags 1 t _ ht ho
  refine ⟨by decide, _, hr, t, drawnTable (tablesOf crewScript.toList) {} 1 t.outline, ht, ho, hlinkable, hflagged, ?_⟩
  exact ⟨hrecorded hlinkable, hcolumns.2⟩

/-- A script with a foreign key to a table that is not there. -/
def orphanScript : String := "CREATE TABLE a (x INT, FOREIGN KEY (x) REFERENCES b(y))"

/-- It marks no column. -/
theorem not_recorded_orphan : ∃ r, read {} .postgresql orphanScript = .ok r ∧
    ∃ t owner, (tablesOf orphanScript.toList)[0]? = some t ∧ r.diagram.tables[0]? = some owner ∧
      ¬ Recorded t owner := by
  have hunmarked : ((tablesOf orphanScript.toList)[0]?.any fun t => t.references.any fun r =>
      ((outline (tablesOf orphanScript.toList)).draw {}).tables[0]?.any fun o => o.columns.any fun c =>
        o.columnNamed? r.column == some c && !c.constraints.isForeignKey) = true := by decide +kernel
  obtain ⟨t, ht, hunmarked⟩ := (Option.any_eq_true _ _).mp hunmarked
  have ho := getElem?_tables_draw (s := {}) ht
  rw [ho] at hunmarked
  refine ⟨_, read_eq .postgresql orphanScript (by decide), t, _, ht, ho, fun hrecorded => ?_⟩
  obtain ⟨r, hr, hunmarked⟩ := List.any_eq_true.mp hunmarked
  obtain ⟨c, hc, hnamed⟩ := List.any_eq_true.mp hunmarked
  rw [Bool.and_eq_true, beq_iff_eq] at hnamed
  have hmarked := (hrecorded c hc).mpr ⟨r, hr, hnamed.1⟩
  simp [hmarked] at hnamed

end Erd.Sql
