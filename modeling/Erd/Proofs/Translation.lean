import Erd.Proofs.Dbml.RoundTrip
import Erd.Proofs.Sql.Accounting
import Erd.Proofs.Sql.LetterCase.Script

/-!
# From SQL to DBML and back

A script of SQL can be read, written as DBML and read again. Whatever the script, its tables are called by
words and its columns by something, so the way there and back only depends on what DBML makes of the names of
columns, which may hold anything that can stand between quotes in SQL.

**Results.**
* `Sql.isPlainWord_name`, `Sql.names_ne_nil`: what tables and columns of a script can be called.
* `Dbml.draft_write`: the draft of a written diagram.
* `sql_through_dbml`: the way through DBML keeps tables, columns and relationships if its columns are legible.
* `not_sql_through_dbml_torn`: names of columns that it does not keep.
-/
namespace Erd

open Text

/-! ## Names in SQL -/

namespace Sql

/-- A table is called by a word. -/
theorem isPlainWord_of_tableHead? {s name rest : List Char} (h : tableHead? s = some (name, rest)) :
    isPlainWord name = true := by
  have hloose {t u v : List Char} (hw : looseWord? t = some (u, v)) : isPlainWord u = true := by
    simp only [looseWord?] at hw
    split at hw
    · cases hw
    · next hne =>
      cases hw
      exact isPlainWord_iff.mpr ⟨by simpa using hne, fun c hc => List.mem_takeWhile_imp hc⟩
  rw [tableHead?_eq] at h
  obtain ⟨t, -, h⟩ := Option.bind_eq_some_iff.mp h
  obtain ⟨⟨n, u⟩, hn, h⟩ := Option.bind_eq_some_iff.mp h
  obtain ⟨body, -, h⟩ := Option.map_eq_some_iff.mp h
  cases h
  unfold tableName? at hn
  split at hn
  · exact hloose hn
  · exact hloose hn

/-- A column is called by something. -/
theorem name_of_read {s : List Char} {c : ColumnDefinition} (h : Definition.read s = .column c) :
    c.name.toList ≠ [] := by
  obtain ⟨name, spelling, settings, hdeclares, rfl⟩ := declares_of_read h
  obtain ⟨spelled, b, rest, hspells, -⟩ := hdeclares.form
  simpa [columnDefinition] using hspells.ne_nil

/-- The names that a definition of a table can give. -/
structure Named (t : Outline.Table) : Prop where
  table : isPlainWord t.name.toList = true
  columns : ∀ name ∈ t.columns.map (·.name), name.toList ≠ []

theorem named_of_read {s : List Char} {t : TableDefinition} (h : TableDefinition.read s = .ok t) :
    Named t.outline := by
  obtain ⟨⟨name, body⟩, hbody, rfl⟩ := exists_tableBody? h
  obtain ⟨rest, hhead⟩ := tableHead?_of_tableBody? hbody
  refine ⟨by simpa [TableDefinition.outline, tableOf] using isPlainWord_of_tableHead? hhead, fun x hx => ?_⟩
  rw [TableDefinition.outline, names_columns] at hx
  obtain ⟨k, hk, rfl⟩ := List.mem_map.mp hx
  obtain ⟨c, hc, rfl⟩ := List.mem_map.mp hk
  obtain ⟨d, hd⟩ := exists_read_of_mem_columns hc
  exact name_of_read hd

theorem Named.marked {t : Outline.Table} (h : Named t) (links : List Outline.Link) (i : Nat) :
    Named (markLinked links i t) :=
  ⟨h.table, names_markLinked links i t ▸ h.columns⟩

theorem named_of_mem_outline (script : List Char) {t : Outline.Table}
    (ht : t ∈ (outline (tablesOf script)).tables) : Named t := by
  obtain ⟨i, hi, rfl⟩ := List.mem_mapIdx.mp ht
  refine Named.marked ?_ _ i
  obtain ⟨d, hd, hdi⟩ := List.mem_map.mp (List.getElem_mem hi)
  rw [← hdi]
  obtain ⟨o, ho, hod⟩ := List.mem_filterMap.mp hd
  obtain ⟨x, -, rfl⟩ := List.mem_map.mp ho
  cases hx : TableDefinition.read x.text with
  | error e =>
    rw [Outcome.table?, hx] at hod
    cases hod
  | ok u =>
    rw [Outcome.table?, hx] at hod
    cases hod
    exact named_of_read hx

end Sql

/-! ## Names in DBML -/

namespace Dbml

/-- The columns of a diagram are called by what DBML can hold: no name is broken over lines or leaves a bracket
open, none with a double quote in it has a blank, and none at an end of a relationship has a double quote. -/
structure Spellable (d : Diagram) : Prop where
  oneLine : ∀ t ∈ d.tables, ∀ c ∈ t.columns, OneLine c.name.toList
  closed : ∀ t ∈ d.tables, ∀ c ∈ t.columns, bracketsClosed c.name.toList = true
  unbroken : ∀ t ∈ d.tables, ∀ c ∈ t.columns, '"' ∈ c.name.toList → ∀ x ∈ c.name.toList, isBlank x = false
  ends : ∀ p ∈ d.relationships.filterMap d.resolve,
    '"' ∉ p.sourceColumn.name.toList ∧ '"' ∉ p.targetColumn.name.toList

instance (d : Diagram) : Decidable (Spellable d) :=
  decidable_of_iff
    ((∀ t ∈ d.tables, ∀ c ∈ t.columns, OneLine c.name.toList) ∧
      (∀ t ∈ d.tables, ∀ c ∈ t.columns, bracketsClosed c.name.toList = true) ∧
      (∀ t ∈ d.tables, ∀ c ∈ t.columns, '"' ∈ c.name.toList → ∀ x ∈ c.name.toList, isBlank x = false) ∧
      ∀ p ∈ d.relationships.filterMap d.resolve,
        '"' ∉ p.sourceColumn.name.toList ∧ '"' ∉ p.targetColumn.name.toList)
    ⟨fun h => ⟨h.1, h.2.1, h.2.2.1, h.2.2.2⟩, fun h => ⟨h.oneLine, h.closed, h.unbroken, h.ends⟩⟩

theorem writable_of_isPlainWord {name : String} (h : isPlainWord name.toList = true) : Writable name := by
  obtain ⟨hne, hw⟩ := isPlainWord_iff.mp h
  exact ⟨hne, fun hq => absurd (hw _ hq) (by decide), oneLine_of_word hw⟩

/-- Where tables are called by words and columns by something, spelling is all that the lines depend on. -/
theorem Spellable.legibleLines {d : Diagram} (h : Spellable d) (hn : ∀ t ∈ d.tables, Sql.Named t.outline) :
    LegibleLines d := by
  have hcolumn {t : Table} (ht : t ∈ d.tables) {c : Column} (hc : c ∈ t.columns) : c.name.toList ≠ [] := by
    refine (hn t ht).columns c.name ?_
    rw [Table.outline, List.map_map]
    exact List.mem_map_of_mem (f := fun c => c.name) hc
  refine ⟨fun t ht => ⟨writable_of_isPlainWord (hn t ht).table, fun c hc =>
    ⟨hcolumn ht hc, h.oneLine t ht c hc, h.closed t ht c hc, h.unbroken t ht c hc⟩⟩, fun p hp => ?_⟩
  obtain ⟨hs, ht⟩ := h.ends p hp
  obtain ⟨r, -, hr⟩ := List.mem_filterMap.mp hp
  obtain ⟨⟨hst, hsc⟩, htt, htc⟩ := Diagram.resolve_mem hr
  exact ⟨⟨writable_of_isPlainWord (hn _ hst).table, hcolumn hst hsc, hs, h.oneLine _ hst _ hsc⟩,
    writable_of_isPlainWord (hn _ htt).table, hcolumn htt htc, ht, h.oneLine _ htt _ htc⟩

/-- The draft of a written diagram, which is empty if the diagram has no tables. -/
theorem draft_write {d : Diagram} (h : Readable d) :
    (draft (write d)).outline = ⟨d.tables.map keptTable, writtenLinks d⟩ ∧
      (draft (write d)).diagnostics = [] := by
  by_cases hne : d.tables = []
  · have hw : write d = "" := by
      rw [write, hne]
      rfl
    have hnone : d.relationships.filterMap d.resolve = [] := by
      refine List.filterMap_eq_nil_iff.mpr fun r _ => Option.eq_none_iff_forall_ne_some.mpr fun p hp => ?_
      have := (Diagram.resolve_mem hp).1.1
      rw [hne] at this
      cases this
    have hlinks : writtenLinks d = [] := by
      rw [writtenLinks, hnone]
      rfl
    rw [hw, hlinks, hne]
    exact ⟨rfl, rfl⟩
  · have hdraft : draft (write d) = draftOf (write d).toList := by
      rw [draft, if_neg (by simp [isBlankText_write hne])]
    rw [hdraft]
    exact h.draftOf_write hne

end Dbml

/-! ## There and back -/

/-- The names of the tables, and those of the columns of each table, differ by more than case. -/
structure Diagram.DistinctNames (d : Diagram) : Prop where
  tables : (d.tables.map fun t => nameKey t.name).Nodup
  columns : ∀ t ∈ d.tables, (t.columns.map fun c => nameKey c.name).Nodup

theorem Diagram.distinctNames_iff {d : Diagram} : d.DistinctNames ↔
    (d.tables.map fun t => nameKey t.name).Nodup ∧
      ∀ t ∈ d.tables, (t.columns.map fun c => nameKey c.name).Nodup :=
  ⟨fun h => ⟨h.tables, h.columns⟩, fun h => ⟨h.1, h.2⟩⟩

instance (d : Diagram) : Decidable d.DistinctNames := decidable_of_iff' _ Diagram.distinctNames_iff

/-- What is left of a table on the way: its name, and the names, the types and whether they can be null of its
columns. -/
def Outline.Table.shape (t : Outline.Table) : String × List (String × ColumnType × Bool) :=
  (t.name, t.columns.map fun c => (c.name, c.type, c.constraints.isNullable))

/-- What is left of the tables of a diagram. -/
def Diagram.shapes (d : Diagram) : List (String × List (String × ColumnType × Bool)) :=
  d.tables.map fun t => t.outline.shape

theorem shape_keptTable (t : Table) : (Dbml.keptTable t).shape = t.outline.shape := by
  simp [Outline.Table.shape, Dbml.keptTable, Table.outline, Dbml.keptColumn, Dbml.keptFlags, Column.outline,
    Function.comp_def]

/-- In an intact diagram every relationship has names at its ends. -/
theorem map_named?_of_intact {d : Diagram} (h : d.Intact) :
    (d.relationships.filterMap d.named?).map some = d.relationships.map d.named? := by
  refine map_filterMap_of_forall fun r hr => ?_
  obtain ⟨p, hp⟩ := Option.isSome_iff_exists.mp (h r hr)
  have hn : d.named? r = some p.named := by rw [Diagram.named?, hp, Option.map_some]
  exact ⟨p.named, hn, hn.symm⟩

section Diagrams

variable {s : Outline.Sheet} (hs : s.grid.columns ≠ 0)

include hs

/-- A readable, intact diagram is read back from its document in the same shape. -/
theorem Dbml.read_back {d : Diagram} (h : Dbml.Readable d) (hi : d.Intact) :
    ∃ q, Dbml.read s (Dbml.write d) = .ok q ∧ q.diagnostics = [] ∧ q.diagram.Intact ∧
      q.diagram.shapes = d.shapes ∧
      q.diagram.relationships.map q.diagram.named? = d.relationships.map d.named? := by
  obtain ⟨hout, hdiag⟩ := Dbml.draft_write h
  have hlinked := Dbml.linked_draft (Dbml.write d)
  rw [hout] at hlinked
  let o : Outline := ⟨d.tables.map Dbml.keptTable, Dbml.writtenLinks d⟩
  have hread : Dbml.read s (Dbml.write d) = .ok ⟨o.draw s, []⟩ := by
    rw [Dbml.read, Draft.reading_eq hs, hout, hdiag]
  refine ⟨⟨o.draw s, []⟩, hread, rfl, Outline.intact_draw hlinked s, ?_, ?_⟩
  · have hshapes : ((o.draw s).tables.map Table.outline).map Outline.Table.shape = d.shapes := by
      rw [Outline.outlines_draw, List.map_map]
      exact List.map_congr_left fun t _ => shape_keptTable t
    rwa [List.map_map] at hshapes
  · rw [← map_named?_of_intact hi, ← h.named?_writtenLinks]
    exact Outline.namedLinks_draw hlinked

/-- Whatever script is read, with tables and columns whose names differ by more than case, the DBML of what was
read is read without a complaint, with the same tables, columns, types and nullability and the same
relationships, in the same order, if DBML can spell the names of the columns. -/
theorem sql_through_dbml (dialect : Dialect) (script : String) :
    ∃ r, Sql.read s dialect script = .ok r ∧ r.diagram.Intact ∧
      (r.diagram.DistinctNames → Dbml.Spellable r.diagram →
        ∃ q, Dbml.read s (Dbml.write r.diagram) = .ok q ∧ q.diagnostics = [] ∧ q.diagram.Intact ∧
          q.diagram.shapes = r.diagram.shapes ∧
          q.diagram.relationships.map q.diagram.named? = r.diagram.relationships.map r.diagram.named?) := by
  have hintact := Outline.intact_draw (Sql.linked_outline (Sql.tablesOf script.toList)) s
  have hnamed : ∀ t ∈ ((Sql.outline (Sql.tablesOf script.toList)).draw s).tables, Sql.Named t.outline := by
    intro t ht
    refine Sql.named_of_mem_outline script.toList ?_
    rw [← Outline.outlines_draw (s := s)]
    exact List.mem_map_of_mem ht
  exact ⟨_, Sql.read_eq dialect script hs, hintact, fun hnames hspell =>
    Dbml.read_back hs ⟨hspell.legibleLines hnamed, hnames.tables, hnames.columns⟩ hintact⟩

end Diagrams

/-- Columns with a blank, a double quote and brackets in their names, and a relationship. -/
def oddScript : String :=
  "CREATE TABLE a (\"the key\" INT PRIMARY KEY, \x60\"\x60 TEXT); CREATE TABLE b (x[1] INT REFERENCES a(\"the key\"))"

theorem sql_through_dbml_odd :
    ({} : Outline.Sheet).grid.columns ≠ 0 ∧ ∃ r, Sql.read {} .mysql oddScript = .ok r ∧
      r.diagram.DistinctNames ∧ Dbml.Spellable r.diagram ∧
      ∃ q, Dbml.read {} (Dbml.write r.diagram) = .ok q ∧ q.diagnostics = [] ∧
        q.diagram.shapes = r.diagram.shapes := by
  have hs : ({} : Outline.Sheet).grid.columns ≠ 0 := by decide
  obtain ⟨r, hr, -, hback⟩ := sql_through_dbml hs .mysql oddScript
  have hnames : r.diagram.DistinctNames ∧ Dbml.Spellable r.diagram := by
    rw [Sql.read_eq .mysql oddScript hs] at hr
    cases hr
    decide +kernel
  obtain ⟨q, hq, hdiag, -, hshapes, -⟩ := hback hnames.1 hnames.2
  exact ⟨hs, r, hr, hnames.1, hnames.2, q, hq, hdiag, hshapes⟩

/-- The script is read without a complaint, with names that differ by more than case, but what DBML makes of it
is not read without one. -/
def Torn (script : String) : Prop :=
  ∃ r, Sql.read {} .postgresql script = .ok r ∧ r.diagnostics = [] ∧ r.diagram.DistinctNames ∧
    ∃ q, Dbml.read {} (Dbml.write r.diagram) = .ok q ∧ q.diagnostics ≠ []

/-- The diagram that is drawn of a script. -/
def drawnOf (script : String) : Diagram := (Sql.outline (Sql.tablesOf script.toList)).draw {}

theorem torn_of_draft {script : String} (hclean : Sql.faultsOf script.toList = [])
    (hnames : (drawnOf script).DistinctNames)
    (hback : (Dbml.draft (Dbml.write (drawnOf script))).diagnostics ≠ []) : Torn script := by
  have hs : ({} : Outline.Sheet).grid.columns ≠ 0 := by decide
  have hsql : Sql.read {} .postgresql script = .ok ⟨drawnOf script, []⟩ := by
    rw [Sql.read_eq .postgresql script hs, hclean]
    rfl
  have hdbml : Dbml.read {} (Dbml.write (drawnOf script)) =
      .ok ⟨(Dbml.draft (Dbml.write (drawnOf script))).outline.draw {},
        (Dbml.draft (Dbml.write (drawnOf script))).diagnostics⟩ := Draft.reading_eq hs
  generalize Dbml.draft (Dbml.write (drawnOf script)) = back at hdbml hback
  exact ⟨⟨drawnOf script, []⟩, hsql, rfl, hnames, _, hdbml, hback⟩

/-- A bracket that stays open in the name of a column, a double quote next to a blank, a line end, and a double
quote at the end of a relationship cannot be spelled. -/
theorem not_sql_through_dbml_torn :
    Torn "CREATE TABLE t (\"a[\" INT)" ∧ Torn "CREATE TABLE t (\x60a\" b\x60 INT)" ∧
      Torn "CREATE TABLE t (\"a\nb\" INT)" ∧
      Torn "CREATE TABLE t (\x60\"\x60 INT, b INT REFERENCES t(\x60\"\x60))" := by
  refine ⟨?_, ?_, ?_, ?_⟩
  all_goals exact torn_of_draft (by decide +kernel) (by decide +kernel) (by decide +kernel)

end Erd
