import Erd.Proofs.Sql.KeyLinks
import Erd.Proofs.Sql.LinkTables

/-!
# One to one or one to many

A foreign key is one to one if the column that refers is unique. A column is unique if its own settings say so, if
a constraint of the table makes it unique on its own, or if it belongs to a primary key of the table, however many
columns that has. So a primary key of two columns makes a foreign key from either of them one to one, and a unique
constraint of two columns does not. A link table has such a primary key, and both its foreign keys start there.

**Results.**
* `getElem?_foldl_changeNamed`: changing columns by name changes the first column of each name.
* `isUnique_columns`: what makes a column unique.
* `exists_key_of_mem_relationships`: the table and the column that a relationship refers from.
* `one_to_one_iff`: which relationships are one to one, and that those of link tables are.
-/
namespace Erd

/-- The relationship refers from the column with the index `j` of the table with the index `i`. -/
def Diagram.RefersFrom (d : Diagram) (r : Relationship) (i j : Nat) : Prop :=
  ∃ owner child, d.tables[i]? = some owner ∧ owner.columns[j]? = some child ∧ r.target = ⟨owner.id, child.id⟩

namespace Sql

open Text

/-! ## Changing columns by name -/

/-- The index of the first column with a name. -/
def firstNamed? (cs : List Outline.Column) (name : String) : Option Nat :=
  cs.findIdx? fun c => nameKey c.name == nameKey name

theorem firstNamed?_congr {cs ds : List Outline.Column} (h : cs.map (·.name) = ds.map (·.name)) :
    firstNamed? cs = firstNamed? ds := by
  funext name
  have hmap (es : List Outline.Column) :
      firstNamed? es name = (es.map (·.name)).findIdx? fun n => nameKey n == nameKey name := by
    rw [List.findIdx?_map]
    rfl
  rw [hmap, hmap, h]

section ChangeNamed

variable {f : Outline.Column → Outline.Column} {cs : List Outline.Column}

theorem getElem?_changeNamed (name : String) (j : Nat) : (Outline.changeNamed name f cs)[j]? =
    cs[j]?.map fun c => if firstNamed? cs name = some j then f c else c := by
  induction cs generalizing j with
  | nil => rfl
  | cons c cs ih =>
    rw [Outline.changeNamed, firstNamed?, List.findIdx?_cons]
    by_cases hc : nameKey c.name = nameKey name
    · simp only [hc, if_true, beq_self_eq_true]
      cases j <;> simp
    · rw [if_neg hc, beq_false_of_ne hc, if_neg Bool.false_ne_true]
      cases j with
      | zero => simp
      | succ j =>
        rw [List.getElem?_cons_succ, List.getElem?_cons_succ, ih, firstNamed?]
        simp

/-- Where a second change adds nothing, changing columns one after another changes the first one of each name. -/
theorem getElem?_foldl_changeNamed (hf : ∀ c, (f c).name = c.name) (hff : ∀ c, f (f c) = f c)
    (names : List String) (j : Nat) :
    (names.foldl (fun cs name => Outline.changeNamed name f cs) cs)[j]? =
      cs[j]?.map fun c => if ∃ n ∈ names, firstNamed? cs n = some j then f c else c := by
  induction names generalizing cs with
  | nil => simp
  | cons name names ih =>
    rw [List.foldl_cons, ih, firstNamed?_congr (names_changeNamed hf name cs), getElem?_changeNamed, Option.map_map]
    refine congrArg (Option.map · _) (funext fun c => ?_)
    by_cases hname : firstNamed? cs name = some j
    · simp [hname, hff]
    · simp [hname]

end ChangeNamed

/-! ## What makes a column unique -/

namespace TableDefinition

variable (t : TableDefinition) (j : Nat)

/-- The settings of the column hold the words for a primary key or the one for unique. -/
def SaysUnique : Prop :=
  ∃ name spelling settings,
    (t.definitions.filterMap Definition.column?)[j]? = some (columnDefinition name spelling settings) ∧
      (hasPhrase ["primary", "key"] settings = true ∨ hasPhrase ["unique"] settings = true)

/-- The column belongs to a primary key of the table: it is the first with one of the names there. -/
def InPrimaryKey : Prop :=
  ∃ names, .primaryKey names ∈ t.definitions ∧ ∃ n ∈ names, t.outline.columnNamed? n = some j

/-- The column is the only one of a primary key of the table. -/
def AloneInPrimaryKey : Prop := ∃ n, .primaryKey [n] ∈ t.definitions ∧ t.outline.columnNamed? n = some j

/-- The column is the only one of a unique constraint of the table. -/
def AloneUnique : Prop := ∃ n, .unique [n] ∈ t.definitions ∧ t.outline.columnNamed? n = some j

theorem columnNamed?_outline : t.outline.columnNamed? = firstNamed? t.ownColumns :=
  firstNamed?_congr (names_columns t)

theorem inPrimaryKey_iff : t.InPrimaryKey j ↔
    ∃ n ∈ t.definitions.flatMap Definition.primaryKeyColumns, t.outline.columnNamed? n = some j := by
  constructor
  · rintro ⟨names, hnames, n, hn, hj⟩
    exact ⟨n, List.mem_flatMap.mpr ⟨_, hnames, hn⟩, hj⟩
  · rintro ⟨n, hn, hj⟩
    obtain ⟨d, hd, hn⟩ := List.mem_flatMap.mp hn
    cases d with
    | primaryKey names => exact ⟨names, hd, n, hn, hj⟩
    | _ => cases hn

theorem aloneUnique_iff : t.AloneUnique j ↔
    ∃ n ∈ t.definitions.filterMap Definition.uniqueColumn?, t.outline.columnNamed? n = some j := by
  constructor
  · rintro ⟨n, hn, hj⟩
    exact ⟨n, List.mem_filterMap.mpr ⟨_, hn, rfl⟩, hj⟩
  · rintro ⟨n, hn, hj⟩
    obtain ⟨d, hd, hn⟩ := List.mem_filterMap.mp hn
    unfold Definition.uniqueColumn? at hn
    split at hn
    · cases hn
      exact ⟨n, hd, hj⟩
    · cases hn

instance : Decidable (t.InPrimaryKey j) := decidable_of_iff' _ (inPrimaryKey_iff t j)

instance : Decidable (t.AloneUnique j) := decidable_of_iff' _ (aloneUnique_iff t j)

/-- The flags of a column are those of its own definition and those that keys add. -/
theorem getElem?_columns : t.columns[j]? = t.ownColumns[j]?.map fun c =>
    let keyed := if t.InPrimaryKey j then markPrimaryKey c else c
    if t.AloneUnique j then markUnique keyed else keyed := by
  have hnames : firstNamed? ((t.definitions.flatMap Definition.primaryKeyColumns).foldl
      (fun cs name => Outline.changeNamed name markPrimaryKey cs) t.ownColumns) = t.outline.columnNamed? := by
    rw [columnNamed?_outline]
    exact firstNamed?_congr (names_foldl_changeNamed (f := markPrimaryKey) (fun _ => rfl) _ _)
  rw [columns, getElem?_foldl_changeNamed (f := markUnique) (fun c => rfl) (fun c => rfl), hnames,
    getElem?_foldl_changeNamed (f := markPrimaryKey) (fun c => rfl) (fun c => rfl), Option.map_map,
    ← columnNamed?_outline]
  refine congrArg (Option.map · _) (funext fun c => ?_)
  exact if_congr (aloneUnique_iff t j).symm (congrArg markUnique (if_congr (inPrimaryKey_iff t j).symm rfl rfl))
    (if_congr (inPrimaryKey_iff t j).symm rfl rfl)

end TableDefinition

theorem isUnique_of_saysUnique {t : TableDefinition} {j : Nat} {c : ColumnDefinition}
    (h : (t.definitions.filterMap Definition.column?)[j]? = some c) (hsaid : t.SaysUnique j) : c.isUnique = true := by
  obtain ⟨name, spelling, settings, hc, hsaid⟩ := hsaid
  obtain rfl := Option.some.inj (h.symm.trans hc)
  simpa [columnDefinition] using hsaid

/-- The settings of a column that is read from a body say that it is unique exactly if its own definition does. -/
theorem saysUnique_iff {q : List Char × List Char} {j : Nat} {c : ColumnDefinition}
    (h : ((tableOf q).definitions.filterMap Definition.column?)[j]? = some c) :
    (tableOf q).SaysUnique j ↔ c.isUnique = true := by
  refine ⟨isUnique_of_saysUnique h, fun hunique => ?_⟩
  obtain ⟨d, hd⟩ := exists_read_of_mem_columns (List.mem_of_getElem? h)
  obtain ⟨name, spelling, settings, -, rfl⟩ := declares_of_read hd
  exact ⟨name, spelling, settings, h, by simpa [columnDefinition] using hunique⟩

/-- A column is unique if its settings say so, if it belongs to a primary key, or if it is alone in a unique
constraint. -/
theorem isUnique_columns {q : List Char × List Char} {j : Nat} {c : Outline.Column}
    (h : (tableOf q).columns[j]? = some c) : c.constraints.isUnique = true ↔
      (tableOf q).SaysUnique j ∨ (tableOf q).InPrimaryKey j ∨ (tableOf q).AloneUnique j := by
  rw [TableDefinition.getElem?_columns, TableDefinition.ownColumns, List.getElem?_map] at h
  cases hown : ((tableOf q).definitions.filterMap Definition.column?)[j]? with
  | none =>
    rw [hown] at h
    cases h
  | some own =>
    rw [hown, Option.map_some, Option.map_some, Option.some.injEq] at h
    rw [saysUnique_iff hown, ← h]
    by_cases hunique : (tableOf q).AloneUnique j
    · simp [hunique, markUnique]
    · by_cases hkey : (tableOf q).InPrimaryKey j
      · simp [hunique, hkey, markPrimaryKey]
      · simp [hunique, hkey, ColumnDefinition.outline]

/-! ## Relationships and their foreign keys -/

section Relationships

variable {ts : List TableDefinition} {s : Outline.Sheet}

/-- A relationship of a diagram is that of a foreign key, and refers from the column that the foreign key names. -/
theorem exists_key_of_mem_relationships {x : Relationship} (h : x ∈ ((outline ts).draw s).relationships) :
    ∃ i t, ts[i]? = some t ∧ ∃ r ∈ t.references, ∃ j, t.outline.columnNamed? r.column = some j ∧
      ((outline ts).draw s).RefersFrom x i j ∧ x.cardinality = linkCardinality t.outline j := by
  obtain ⟨k, hk, rfl⟩ := List.mem_mapIdx.mp h
  obtain ⟨i, t, ht, r, hr, hlink⟩ := mem_links.mp (List.getElem_mem hk)
  cases hx : tie? (ts.map TableDefinition.outline) t.outline r with
  | none =>
    rw [linked?_of_tie?_none hx] at hlink
    cases hlink
  | some x =>
    obtain ⟨source, hs, -⟩ := linked?_of_tie? hx i
    obtain ⟨c, hc⟩ := child_of_tie? hx
    obtain ⟨_, -, hx⟩ := Option.bind_eq_some_iff.mp hx
    obtain ⟨_, -, hx⟩ := Option.bind_eq_some_iff.mp hx
    obtain ⟨j, hj, rfl⟩ := Option.map_eq_some_iff.mp hx
    have hl := Option.some.inj (hlink.symm.trans hs)
    refine ⟨i, t, ht, r, hr, j, hj, ⟨_, drawnColumn ts s i j c, getElem?_tables_draw ht, ?_, ?_⟩, ?_⟩
    · rw [columns_drawnTable, List.getElem?_mapIdx, hc]
      rfl
    · rw [Outline.Sheet.relationship, hl]
      rfl
    · rw [Outline.Sheet.relationship, hl]

theorem target_of_refersFrom {x : Relationship} {i j : Nat} (h : ((outline ts).draw s).RefersFrom x i j) :
    x.target = ⟨s.tableId i, s.columnId i j⟩ := by
  obtain ⟨owner, child, howner, hchild, htarget⟩ := h
  rw [tables_draw, List.getElem?_mapIdx] at howner
  obtain ⟨o, -, rfl⟩ := Option.map_eq_some_iff.mp howner
  rw [columns_drawnTable, List.getElem?_mapIdx] at hchild
  obtain ⟨c, -, rfl⟩ := Option.map_eq_some_iff.mp hchild
  exact htarget

/-- It refers from one column only. -/
theorem refersFrom_inj {x : Relationship} {i j k l : Nat} (hij : ((outline ts).draw s).RefersFrom x i j)
    (hkl : ((outline ts).draw s).RefersFrom x k l) : i = k ∧ j = l := by
  have htarget := (target_of_refersFrom hij).symm.trans (target_of_refersFrom hkl)
  exact Outline.Part.column.inj (s.ids.injective (Endpoint.mk.inj htarget).2)

theorem cardinality_iff_of_key {script : List Char} {x : Relationship} {i j : Nat} {t : TableDefinition}
    (ht : (tablesOf script)[i]? = some t) {r : Reference} (hj : t.outline.columnNamed? r.column = some j)
    (hx : x.cardinality = linkCardinality t.outline j) :
    x.cardinality = .oneToOne ↔ t.SaysUnique j ∨ t.InPrimaryKey j ∨ t.AloneUnique j := by
  obtain ⟨c, hc, -⟩ := Outline.columnNamed?_eq_some hj
  rw [tablesOf_eq_bodies] at ht
  obtain ⟨q, -, rfl⟩ := List.mem_map.mp (List.mem_of_getElem? ht)
  have hc : (tableOf q).columns[j]? = some c := hc
  rw [← isUnique_columns hc, hx, linkCardinality, TableDefinition.outline, hc, Option.any_some]
  split
  · next h => simp [h]
  · next h => simp [h]

end Relationships

/-! ## Link tables -/

theorem columns_linkDefinition (d : Dialect) (p : Resolved) :
    (linkDefinition d p).definitions.filterMap Definition.column? =
      (linkEnds p).map fun q => columnRead d (linkColumn q.1 q.2) := by
  simp [linkDefinition, linkEnds, Definition.column?]

/-- Whatever a link table refers from belongs to its primary key. -/
theorem inPrimaryKey_linkDefinition {d : Dialect} {p : Resolved} {r : Reference}
    (hr : r ∈ (linkDefinition d p).references) {j : Nat}
    (hj : (linkDefinition d p).outline.columnNamed? r.column = some j) : (linkDefinition d p).InPrimaryKey j := by
  have hkey : .primaryKey (linkNames p) ∈ (linkDefinition d p).definitions := by simp [linkDefinition]
  rw [references_linkDefinition] at hr
  obtain ⟨q, hq, rfl⟩ := List.mem_map.mp hr
  exact ⟨linkNames p, hkey, _, List.mem_map_of_mem hq, hj⟩

/-- None of its columns is unique on its own. -/
theorem not_alone_linkDefinition (d : Dialect) (p : Resolved) (j : Nat) : ¬ ((linkDefinition d p).SaysUnique j ∨
    (linkDefinition d p).AloneInPrimaryKey j ∨ (linkDefinition d p).AloneUnique j) := by
  rintro (hsaid | ⟨n, hkey, -⟩ | ⟨n, hunique, -⟩)
  · obtain ⟨name, spelling, settings, hc, -⟩ := id hsaid
    have hread := isUnique_of_saysUnique hc hsaid
    rw [columns_linkDefinition, List.getElem?_map] at hc
    obtain ⟨q, -, hq⟩ := Option.map_eq_some_iff.mp hc
    have hflags := (settings_flags d (linkColumn q.1 q.2)).2.2.1
    rw [← hq, columnRead, columnDefinition] at hread
    simp_all [linkColumn]
  · simp [linkDefinition, linkEnds, linkNames] at hkey
  · simp [linkDefinition, linkEnds] at hunique

/-! ## Scripts -/

/-- How the relationships of a script come to be one to one or one to many. Each is that of a foreign key, and is
one to one exactly if the column that refers says to be unique, belongs to a primary key of its table or is alone in
a unique constraint. -/
structure Cardinal (script : String) (r : Reading) : Prop where
  relationships : ∀ x ∈ r.diagram.relationships, ∃ i j t, (tablesOf script.toList)[i]? = some t ∧
    r.diagram.RefersFrom x i j ∧ (x.cardinality = .oneToOne ∨ x.cardinality = .oneToMany) ∧
    (x.cardinality = .oneToOne ↔ t.SaysUnique j ∨ t.InPrimaryKey j ∨ t.AloneUnique j)

theorem cardinal_read (script : String) (s : Outline.Sheet) (diagnostics : List Diagnostic) :
    Cardinal script ⟨(outline (tablesOf script.toList)).draw s, diagnostics⟩ := by
  refine ⟨fun x hx => ?_⟩
  obtain ⟨i, t, ht, r, -, j, hj, hrefers, hcard⟩ := exists_key_of_mem_relationships hx
  refine ⟨i, j, t, ht, hrefers, ?_, cardinality_iff_of_key ht hj hcard⟩
  rw [hcard, linkCardinality]
  split
  · exact .inl rfl
  · exact .inr rfl

/-- The relationships that are read back from link tables, which stand after the tables of a diagram in its script, are
one to one. -/
theorem oneToOne_of_linkTable {g : Diagram} (hg : Scriptable g.keyPart) {d : Dialect} {s : Outline.Sheet} {k j : Nat}
    (hk : k < (linking g).length) {x : Relationship}
    (hx : x ∈ ((outline (tablesOf (write {} d g).toList)).draw s).relationships)
    (hj : ((outline (tablesOf (write {} d g).toList)).draw s).RefersFrom x (g.tables.length + k) j) :
    x.cardinality = .oneToOne := by
  obtain ⟨i, t, ht, r, hr, l, hl, hrefers, hcard⟩ := exists_key_of_mem_relationships hx
  obtain ⟨rfl, rfl⟩ := refersFrom_inj hrefers hj
  have hlink : (tablesOf (write {} d g).toList)[g.tables.length + k]? = some (linkDefinition d (linking g)[k]) := by
    rw [getElem?_linkTable hg, List.getElem?_eq_getElem hk]
    rfl
  obtain rfl := Option.some.inj (ht.symm.trans hlink)
  exact (cardinality_iff_of_key hlink hl hcard).mpr (.inr (.inl (inPrimaryKey_linkDefinition hr hl)))

/-- A relationship is one to one exactly if the column that refers is unique by its own settings, belongs to a primary
key of however many columns, or is alone in a unique constraint. So what a link table of a written script refers to is
read back as one to one: each of its columns belongs to its primary key. -/
theorem one_to_one_iff {s : Outline.Sheet} (hs : s.grid.columns ≠ 0) (dialect : Dialect) :
    (∀ script, ∃ r, read s dialect script = .ok r ∧ Cardinal script r) ∧
    ∀ d g, Scriptable g.keyPart → ∃ r, read s dialect (write {} d g) = .ok r ∧
      tablesOf (write {} d g).toList = writtenDefinitions d g.keyPart ++ (linking g).map (linkDefinition d) ∧
      ∀ k < (linking g).length, ∀ x ∈ r.diagram.relationships, ∀ j,
        r.diagram.RefersFrom x (g.tables.length + k) j → x.cardinality = .oneToOne :=
  ⟨fun script => ⟨_, read_eq dialect script hs, cardinal_read script s _⟩,
    fun d _ hg => ⟨_, read_eq dialect _ hs, tablesOf_write hg d, fun _ hk _ hx _ hj =>
      oneToOne_of_linkTable hg hk hx hj⟩⟩

/-- Two tables and the relationship between many and many that links them. -/
def courses : Diagram where
  tables :=
    [{ id := "s", name := "students", columns := [{ id := "a", name := "id", type := .serial }] },
      { id := "c", name := "courses", columns := [{ id := "b", name := "id", type := .int }] }]
  relationships := [⟨"r", .manyToMany, ⟨"s", "a"⟩, ⟨"c", "b"⟩⟩]

theorem scriptable_courses : Scriptable courses.keyPart where
  distinctIds := by decide
  tables := by
    have hid : Plain "id" ∧ Declarable "id" := by decide
    refine List.forall_mem_cons.mpr ⟨⟨by decide, by simpa using hid, by decide⟩,
      List.forall_mem_singleton.mpr ⟨by decide, by simpa using hid, by decide⟩⟩
  distinctTables := by decide +kernel
  noLinkTables := by decide

/-- The relationships that are read back are those of their link table. -/
theorem relationships_courses : ((outline (tablesOf (write {} .postgresql courses).toList)).draw {}).relationships =
    [⟨"r0", .oneToOne, ⟨"t0", "t0.c0"⟩, ⟨"t2", "t2.c0"⟩⟩,
      ⟨"r1", .oneToOne, ⟨"t1", "t1.c0"⟩, ⟨"t2", "t2.c1"⟩⟩] := by
  rw [tablesOf_write scriptable_courses]
  decide +kernel

theorem one_to_one_iff_courses : ({} : Outline.Sheet).grid.columns ≠ 0 ∧ Scriptable courses.keyPart ∧
    0 < (linking courses).length ∧ ∃ r, read {} .postgresql (write {} .postgresql courses) = .ok r ∧
      Cardinal (write {} .postgresql courses) r ∧ r.diagram.relationships.length = 2 ∧
      ∀ x ∈ r.diagram.relationships, ∀ j, r.diagram.RefersFrom x 2 j → x.cardinality = .oneToOne := by
  obtain ⟨hscripts, hlinks⟩ := one_to_one_iff (s := {}) (by decide) .postgresql
  obtain ⟨r, hr, hcardinal⟩ := hscripts (write {} .postgresql courses)
  obtain ⟨q, hq, -, hone⟩ := hlinks .postgresql courses scriptable_courses
  obtain rfl := Except.ok.inj (hr.symm.trans hq)
  refine ⟨by decide, scriptable_courses, by decide, r, hr, hcardinal, ?_, hone 0 (by decide)⟩
  obtain rfl := Except.ok.inj (hr.symm.trans (read_eq .postgresql _ (by decide)))
  rw [relationships_courses]
  rfl

/-- Whatever is one to one refers from a column that says to be unique or is alone in a key or unique constraint. -/
def SinglyKeyed (script : String) (r : Reading) : Prop :=
  ∀ x ∈ r.diagram.relationships, x.cardinality = .oneToOne → ∃ i j t, (tablesOf script.toList)[i]? = some t ∧
    r.diagram.RefersFrom x i j ∧ (t.SaysUnique j ∨ t.AloneInPrimaryKey j ∨ t.AloneUnique j)

/-- The relationships of a link table are one to one, but its columns share their primary key. -/
theorem not_singlyKeyed_courses : ∃ r, read {} .postgresql (write {} .postgresql courses) = .ok r ∧
    ¬ SinglyKeyed (write {} .postgresql courses) r := by
  refine ⟨_, read_eq .postgresql _ (by decide), fun hsingly => ?_⟩
  obtain ⟨i, j, t, ht, hrefers, hsingle⟩ := hsingly ⟨"r0", .oneToOne, ⟨"t0", "t0.c0"⟩, ⟨"t2", "t2.c0"⟩⟩
    (by rw [relationships_courses]; exact List.mem_cons_self) rfl
  have hid : ({} : Outline.Sheet).tableId 2 = ({} : Outline.Sheet).tableId i :=
    (Endpoint.mk.inj (target_of_refersFrom hrefers)).1
  obtain rfl := Outline.Part.table.inj (({} : Outline.Sheet).ids.injective hid)
  have hlink : (tablesOf (write {} .postgresql courses).toList)[2]? =
      (linking courses)[0]?.map (linkDefinition .postgresql) := getElem?_linkTable scriptable_courses .postgresql 0
  rw [hlink] at ht
  obtain ⟨p, -, rfl⟩ := Option.map_eq_some_iff.mp ht
  exact not_alone_linkDefinition .postgresql p j hsingle

end Sql
end Erd
