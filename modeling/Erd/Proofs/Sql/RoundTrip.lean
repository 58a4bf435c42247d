import Erd.Proofs.Sql.Linking
import Erd.Proofs.Sql.TableDefinition

/-!
# Reading back written SQL

A written script is read statement by statement: its tables are found in the order in which they are
written. Keys are read back only where they stand in the bodies of tables, each as a link to the table and
the column that it names; where they are added afterwards each is a statement that readers do not know.

**Results.**
* `tie?_written`: a key leads to the columns that it was written for.
* `perm_owned`: the keys that the tables own are the relationships that resolve.
* `read_script`: what is read back of a diagram.
-/
namespace Erd.Sql

open Text

/-! ## Links -/

/-- The relationship of a key as it is read back, told by names. -/
def readLink (p : Resolved) : NamedLink :=
  { p.named with
    cardinality := if p.targetColumn.constraints.isUnique || p.targetColumn.constraints.isPrimaryKey
      then .oneToOne else .oneToMany }

/-- The definitions of the tables of a diagram, in the order in which they are written. -/
def writtenDefinitions (d : Dialect) (g : Diagram) : List TableDefinition :=
  (tableOrder g.tables g.relationships).map (writtenDefinition d g)

/-- The tables of a diagram as they are read back before their keys are linked, in the order in which they
are written. -/
def readBackTables (d : Dialect) (g : Diagram) : List Outline.Table :=
  (tableOrder g.tables g.relationships).map (readBackTable d)

section Links

variable {d : Dialect} {g : Diagram} (h : Scriptable g)

include h

theorem Scriptable.mem_tableOrder {t : Table} : t ∈ tableOrder g.tables g.relationships ↔ t ∈ g.tables :=
  (perm_tableOrder g.relationships h.distinctIds).mem_iff

theorem distinctTables_readBack : Outline.DistinctTables (readBackTables d g) := by
  have hnames : (readBackTables d g).map (fun t => nameKey t.name) =
      (tableOrder g.tables g.relationships).map fun t => nameKey t.name := by
    rw [readBackTables, List.map_map]
    rfl
  rw [Outline.DistinctTables, hnames]
  exact (((perm_tableOrder g.relationships h.distinctIds).map _).nodup_iff).mpr h.distinctTables

theorem distinctColumns_readBack {t : Table} (ht : t ∈ g.tables) : (readBackTable d t).DistinctColumns := by
  have hnames : ((readBackTable d t).columns.map fun c => nameKey c.name) =
      t.columns.map fun c => nameKey c.name := by
    rw [readBackTable, List.map_map]
    rfl
  rw [Outline.Table.DistinctColumns, hnames]
  exact (h.tables t ht).distinctColumns

/-- A key leads to the columns that it was written for. -/
theorem tie?_written {p : Resolved} (hp : p ∈ keyed g) :
    (tie? (readBackTables d g) (readBackTable d p.targetTable) (reference (keyClause p))).bind
      (Tie.named? (readBackTable d p.targetTable)) = some (readLink p) := by
  obtain ⟨⟨⟨hs, hsc⟩, ht, htc⟩, -⟩ := mem_keyed hp
  obtain ⟨a, ha⟩ := List.mem_iff_getElem?.mp hsc
  obtain ⟨b, hb⟩ := List.mem_iff_getElem?.mp htc
  have ha' : (readBackTable d p.sourceTable).columns[a]? = some (readBack d p.sourceColumn) := by
    rw [readBackTable, List.getElem?_map, ha, Option.map_some]
  have hb' : (readBackTable d p.targetTable).columns[b]? = some (readBack d p.targetColumn) := by
    rw [readBackTable, List.getElem?_map, hb, Option.map_some]
  have htable := (tableFound?_eq_some_iff (distinctTables_readBack (d := d) h)).mpr
    ⟨List.mem_map_of_mem (h.mem_tableOrder.mpr hs), rfl⟩
  have hparent := Outline.columnNamed?_of_nodup (distinctColumns_readBack h hs) ha'
  have hchild := Outline.columnNamed?_of_nodup (distinctColumns_readBack h ht) hb'
  have hname : (readBackTable d p.sourceTable).name = p.sourceTable.name := rfl
  have hsource : (readBack d p.sourceColumn).name = p.sourceColumn.name := rfl
  have htarget : (readBack d p.targetColumn).name = p.targetColumn.name := rfl
  rw [hname] at htable
  rw [hsource] at hparent
  rw [htarget] at hchild
  simp only [tie?, reference, keyClause, htable, Option.bind_some, columnFound?, hparent, ha', hchild,
    Option.map_some, Tie.named?, hb', linkCardinality, Option.any_some]
  rfl

theorem outlines_writtenDefinitions :
    (writtenDefinitions d g).map TableDefinition.outline = readBackTables d g := by
  rw [writtenDefinitions, readBackTables, List.map_map]
  exact List.map_congr_left fun t ht => outline_writtenDefinition (h.tables t (h.mem_tableOrder.mp ht))

/-- Without link tables every relationship that resolves is written as a foreign key. -/
theorem keyed_eq : keyed g = g.relationships.filterMap g.resolve := by
  have hall : (g.relationships.filter fun r => r.cardinality != .manyToMany) = g.relationships :=
    List.filter_eq_self.mpr fun r hr => by simpa using h.noLinkTables r hr
  rw [keyed, hall]

/-- Every relationship that resolves is owned by one table. -/
theorem perm_owned :
    ((tableOrder g.tables g.relationships).flatMap (owned g)).Perm (g.relationships.filterMap g.resolve) := by
  rw [← keyed_eq h]
  exact perm_owned_keyed h.distinctIds

/-- Told by names, the links of a table are the relationships whose keys it owns. -/
theorem namedLinksOf_written {t : Table} (ht : t ∈ g.tables) :
    namedLinksOf (readBackTables .sqlite g) (writtenDefinition .sqlite g t) = (owned g t).map readLink := by
  have href : (writtenDefinition .sqlite g t).references = (ownedKeys g t).map reference :=
    references_writtenDefinition
  rw [namedLinksOf, href, ownedKeys, List.map_map, List.filterMap_map, outline_writtenDefinition (h.tables t ht),
    ← List.filterMap_eq_map]
  refine List.filterMap_congr fun p hp => ?_
  obtain rfl := targetTable_of_mem_owned h.distinctIds ht hp
  exact tie?_written h (List.mem_of_mem_filter hp)

theorem named?_writtenLinks :
    (outline (writtenDefinitions .sqlite g)).links.map (outline (writtenDefinitions .sqlite g)).named? =
      ((tableOrder g.tables g.relationships).flatMap (owned g)).map (some ∘ readLink) := by
  rw [namedLinks_outline, outlines_writtenDefinitions h, writtenDefinitions, List.flatMap_map, ← List.map_map]
  refine congrArg (List.map some) ?_
  rw [List.map_flatMap]
  exact List.flatMap_congr fun t ht => namedLinksOf_written h (h.mem_tableOrder.mp ht)

omit h in
/-- Where keys are added afterwards no table refers to another. -/
theorem links_writtenDefinitions (hd : d ≠ .sqlite) : links (writtenDefinitions d g) = [] := by
  rw [links, List.flatten_eq_nil_iff]
  intro l hl
  obtain ⟨i, hi, rfl⟩ := List.mem_mapIdx.mp hl
  have ht : (writtenDefinitions d g)[i] ∈ writtenDefinitions d g := List.getElem_mem hi
  obtain ⟨t, -, ht⟩ := List.mem_map.mp ht
  rw [← ht, references_writtenDefinition, bodyKeys, if_neg hd]
  rfl

end Links

/-! ## The script -/

/-- The commands of a script without their semicolons. -/
def stems (d : Dialect) (g : Diagram) : List (List Char) :=
  (tableOrder g.tables g.relationships).map (fun t => tableStem d t.name (tableTexts d g t)) ++
    if d = .sqlite then [] else (keyed g).map fun p => addKeyStem p.targetTable.name (keyClause p)

/-- The commands of the tables as text. -/
theorem toList_tableCommands (d : Dialect) (g : Diagram) (ts : List Table) :
    ((ts.map (tableCommand d g)).map (Command.text {} d)).map String.toList =
      (ts.map fun t => tableStem d t.name (tableTexts d g t)).map (· ++ [';']) := by
  rw [List.map_map, List.map_map, List.map_map]
  exact List.map_congr_left fun t _ => text_createTable_table d g t

/-- The commands that add foreign keys as text. -/
theorem toList_addKeys (d : Dialect) (g : Diagram) :
    ((addKeys d g).map (Command.text {} d)).map String.toList =
      (if d = .sqlite then [] else (keyed g).map fun p =>
        addKeyStem p.targetTable.name (keyClause p)).map (· ++ [';']) := by
  unfold addKeys
  split
  · rfl
  · rw [List.map_map, List.map_map, List.map_map]
    exact List.map_congr_left fun p _ => text_addForeignKey d p.targetTable.name (keyClause p)

section Script

variable {d : Dialect} {g : Diagram} (h : Scriptable g)

include h

theorem toList_write : (write {} d g).toList = scriptText (stems d g) := by
  have hlinking : linking g = [] := by
    have hnone : (g.relationships.filter fun r => r.cardinality == .manyToMany) = [] :=
      List.filter_eq_nil_iff.mpr fun r hr => by simpa using h.noLinkTables r hr
    rw [linking, hnone, List.filterMap_nil]
  rw [write, text, String.toList_intercalate, commands_eq, hlinking, List.map_nil, List.append_nil, List.map_append,
    List.map_append, toList_tableCommands, toList_addKeys, ← List.map_append]
  rfl

theorem isStem_of_mem_stems : ∀ x ∈ stems d g, IsStem x := by
  intro x hx
  rcases List.mem_append.mp hx with hx | hx
  · obtain ⟨t, ht, rfl⟩ := List.mem_map.mp hx
    have hmem := h.mem_tableOrder.mp ht
    exact isStem_tableStem d (h.tables t hmem).name (isScriptLine_tableTexts h hmem)
  · split at hx
    · cases hx
    · obtain ⟨p, hp, rfl⟩ := List.mem_map.mp hx
      obtain ⟨hc, ht, hr⟩ := plain_keyClause h hp
      exact isStem_addKeyStem (h.tables _ (mem_keyed hp).1.2.1).name hc ht hr

/-- The tables are read as they were written, and a key that is added afterwards is not known. -/
theorem read_stems : (stems d g).map TableDefinition.read =
    (writtenDefinitions d g).map Except.ok ++
      List.replicate (if d = .sqlite then 0 else (g.relationships.filterMap g.resolve).length)
        (Except.error StatementFault.unsupported) := by
  rw [stems, List.map_append]
  congr 1
  · rw [writtenDefinitions, List.map_map, List.map_map]
    exact List.map_congr_left fun t ht => read_table h (h.mem_tableOrder.mp ht)
  · split
    · rfl
    · rw [List.map_map, ← keyed_eq h]
      have hread : ∀ p ∈ keyed g, (TableDefinition.read ∘ fun p => addKeyStem p.targetTable.name
          (keyClause p)) p = Function.const Resolved (.error .unsupported) p :=
        fun p _ => read_addKeyStem p.targetTable.name (keyClause p)
      rw [List.map_congr_left hread, List.map_const]

/-- What is drafted of a written script. -/
theorem draft_write :
    (draft d (write {} d g)).outline = outline (writtenDefinitions d g) ∧
      ∃ lines : List Nat,
        lines.length = (if d = .sqlite then 0 else (g.relationships.filterMap g.resolve).length) ∧
        (draft d (write {} d g)).diagnostics =
          lines.map fun n => ⟨n, StatementFault.unsupported.message d n⟩ := by
  by_cases hne : g.tables = []
  · have hwrite : write {} d g = "" := by
      rw [write, commands, hne]
      rfl
    have hkeyed : g.relationships.filterMap g.resolve = [] := resolved_eq_nil hne
    rw [hwrite, writtenDefinitions, tableOrder_eq_nil hne, hkeyed]
    exact ⟨rfl, [], by simp, rfl⟩
  · have hstems := isStem_of_mem_stems (d := d) h
    have hresults := read_stems (d := d) h
    rw [← results_script hstems, ← toList_write h] at hresults
    have horder : tableOrder g.tables g.relationships ≠ [] := fun hnil => hne <| by
      have := perm_tableOrder g.relationships h.distinctIds
      rw [hnil] at this
      exact List.nil_perm.mp this
    have hblank : isBlankText (write {} d g).toList = false := by
      rw [toList_write h]
      exact isBlankText_scriptText (by simp [stems, horder]) hstems
    rw [draft, hblank, if_neg (by decide), draftOf]
    exact ⟨congrArg outline (tables_of_results hresults), diagnostics_of_results d hresults⟩

end Script

/-- A column without what it says of foreign keys. -/
def unlinkedColumn (c : Outline.Column) : Outline.Column :=
  { c with constraints := { c.constraints with isForeignKey := false } }

/-- A table without what its columns say of foreign keys. -/
def unlinked (t : Outline.Table) : Outline.Table := { t with columns := t.columns.map unlinkedColumn }

theorem unlinkedColumn_markForeignKey (c : Outline.Column) :
    unlinkedColumn (markForeignKey c) = unlinkedColumn c := rfl

theorem unlinkedColumn_readBack (d : Dialect) (c : Column) :
    unlinkedColumn (readBack d c) = readBack d c := rfl

/-- Marking foreign keys changes nothing else. -/
theorem unlinked_markLinked (found : List Outline.Link) (i : Nat) (d : Dialect) (t : Table) :
    unlinked (markLinked found i (readBackTable d t)) = readBackTable d t := by
  have hcols : ((readBackTable d t).columns.mapIdx fun j c =>
      if found.any fun l => l.target == ⟨i, j⟩ then markForeignKey c else c).map unlinkedColumn =
        (readBackTable d t).columns := by
    refine List.ext_getElem (by simp) fun j hj hj' => ?_
    rw [List.getElem_map, List.getElem_mapIdx]
    simp only [readBackTable, List.getElem_map]
    split
    · rw [unlinkedColumn_markForeignKey, unlinkedColumn_readBack]
    · rw [unlinkedColumn_readBack]
  rw [unlinked, markLinked, hcols]

/-- A diagram is read back from its script with its tables in the order in which they are written, and with
the flags of its columns up to what a primary key implies. In SQLite there is no complaint and the
relationships that resolve are all there; in the other dialects there is none, and each key that is added
afterwards is complained about once. -/
theorem read_script {s : Outline.Sheet} (hs : s.grid.columns ≠ 0) (d : Dialect) {g : Diagram}
    (h : Scriptable g) :
    ∃ r, read s d (write {} d g) = .ok r ∧
      (r.diagram.tables.map fun t => unlinked t.outline) = readBackTables d g ∧
      (d = .sqlite → r.diagnostics = [] ∧
        ∃ ls : List NamedLink, r.diagram.relationships.map r.diagram.named? = ls.map some ∧
          ls.Perm ((g.relationships.filterMap g.resolve).map readLink)) ∧
      (d ≠ .sqlite → r.diagram.relationships = [] ∧
        ∃ lines : List Nat, lines.length = (g.relationships.filterMap g.resolve).length ∧
          r.diagnostics = lines.map fun n => ⟨n, StatementFault.unsupported.message d n⟩) := by
  obtain ⟨hout, lines, hlen, hdiag⟩ := draft_write (d := d) h
  refine ⟨⟨(outline (writtenDefinitions d g)).draw s, (draft d (write {} d g)).diagnostics⟩, ?_, ?_, ?_, ?_⟩
  · rw [read, Draft.reading, hout, Outline.place, if_neg (by simp [hs])]
  · have houtlines := Outline.outlines_draw (o := outline (writtenDefinitions d g)) (s := s)
    have hmap := congrArg (List.map unlinked) houtlines
    rw [List.map_map] at hmap
    refine hmap.trans ?_
    rw [outline, outlines_writtenDefinitions h]
    refine List.ext_getElem (by simp) fun i hi hi' => ?_
    rw [List.getElem_map, List.getElem_mapIdx]
    simp only [readBackTables, List.getElem_map, unlinked_markLinked]
  · rintro rfl
    have hnil : lines = [] := List.length_eq_zero_iff.mp hlen
    refine ⟨by rw [hdiag, hnil, List.map_nil], _, ?_, (perm_owned h).map readLink⟩
    rw [List.map_map, ← named?_writtenLinks h]
    exact Outline.namedLinks_draw (linked_outline _)
  · intro hd
    refine ⟨?_, lines, by rw [hlen, if_neg hd], hdiag⟩
    have hlinks : (outline (writtenDefinitions d g)).links = [] := by
      rw [outline, links_writtenDefinitions hd, List.filterMap_nil]
    rw [Outline.draw, hlinks, List.mapIdx_nil]

/-- Two tables that are called like constraints, as are their columns. The one that refers is given first, and
one of its relationships leads nowhere. -/
def orders : Diagram where
  tables :=
    [{ id := "t0", name := "index",
       columns :=
        [{ id := "c0", name := "primary", type := .serial, constraints := { isPrimaryKey := true } },
          { id := "c1", name := "key", type := .decimal, constraints := { isPrimaryKey := true } },
          { id := "c2", name := "unique", type := .int, constraints := { isUnique := true } }] },
      { id := "t1", name := "check",
        columns :=
          [{ id := "c3", name := "foreign", type := .uuid, constraints := { isPrimaryKey := true } }] }]
  relationships :=
    [⟨"r0", .oneToMany, ⟨"t1", "c3"⟩, ⟨"t0", "c2"⟩⟩, ⟨"r1", .oneToOne, ⟨"t1", "c3"⟩, ⟨"t2", "x"⟩⟩]

theorem read_script_orders :
    Scriptable orders ∧ ∃ r, read {} .sqlite (write {} .sqlite orders) = .ok r ∧
      (r.diagram.tables.map fun t => unlinked t.outline) = readBackTables .sqlite orders ∧
      (Dialect.sqlite = .sqlite → r.diagnostics = [] ∧
        ∃ ls : List NamedLink, r.diagram.relationships.map r.diagram.named? = ls.map some ∧
          ls.Perm ((orders.relationships.filterMap orders.resolve).map readLink)) ∧
      (Dialect.sqlite ≠ .sqlite → r.diagram.relationships = [] ∧
        ∃ lines : List Nat, lines.length = (orders.relationships.filterMap orders.resolve).length ∧
          r.diagnostics = lines.map fun n => ⟨n, StatementFault.unsupported.message .sqlite n⟩) := by
  have h : Scriptable orders := by
    refine ⟨by decide, ?_, by decide +kernel, by decide⟩
    intro t ht
    simp only [orders, List.mem_cons, List.not_mem_nil, or_false] at ht
    rcases ht with rfl | rfl
    · refine ⟨by decide +kernel, fun c hc => ?_, by decide +kernel⟩
      simp only [List.mem_cons, List.not_mem_nil, or_false] at hc
      rcases hc with rfl | rfl | rfl
      · exact ⟨by decide +kernel, by decide +kernel⟩
      · exact ⟨by decide +kernel, by decide +kernel⟩
      · exact ⟨by decide +kernel, by decide +kernel⟩
    · refine ⟨by decide +kernel, fun c hc => ?_, by decide +kernel⟩
      obtain rfl := List.mem_singleton.mp hc
      exact ⟨by decide +kernel, by decide +kernel⟩
  exact ⟨h, read_script (by decide) .sqlite h⟩

end Erd.Sql
