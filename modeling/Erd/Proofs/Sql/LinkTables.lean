import Erd.Proofs.Dangling
import Erd.Proofs.Sql.RoundTrip

/-!
# Written link tables

A relationship between many and many is written as a table with a column for each of its ends. The two columns make
up the primary key, and each has a foreign key. Such a table is read back after the tables of the diagram, which are
read back as they are without those relationships.

**Results.**
* `tableOrder_keyPart`, `keyed_keyPart`: relationships between many and many change neither the order of the tables
  nor their foreign keys.
* `tablesOf_write`: the tables of a written script.
-/
namespace Erd

/-- The diagram without its relationships between many and many. -/
def Diagram.keyPart (g : Diagram) : Diagram :=
  { g with relationships := g.relationships.filter fun r => r.cardinality != .manyToMany }

namespace Sql

open Text

/-! ## Definitions of link tables -/

/-- The column of a link table that refers to a column of a table. -/
def linkColumn (t : Table) (c : Column) : Column where
  id := ""
  name := t.name ++ "_id"
  type := if c.type = .serial then .int else c.type
  constraints := { isNullable := false }

/-- Its foreign key. -/
def linkKey (t : Table) (c : Column) : KeyClause := ⟨(linkColumn t c).name, t.name, c.name⟩

/-- The columns of a link table, each with what it refers to. -/
def linkEnds (p : Resolved) : List (Table × Column) :=
  [(p.sourceTable, p.sourceColumn), (p.targetTable, p.targetColumn)]

/-- The names of the columns of a link table. -/
def linkNames (p : Resolved) : List String := (linkEnds p).map fun q => (linkColumn q.1 q.2).name

/-- The lines of a link table, as text. -/
def linkTexts (d : Dialect) (p : Resolved) : List (List Char) :=
  (linkEnds p).map (fun q => columnText d (linkColumn q.1 q.2)) ++ [keyText (linkNames p)] ++
    (linkEnds p).map fun q => foreignKeyText (linkKey q.1 q.2)

/-- The definition of a link table: its columns, the primary key of both, and the foreign keys. -/
def linkDefinition (d : Dialect) (p : Resolved) : TableDefinition :=
  ⟨p.sourceTable.name ++ "_" ++ p.targetTable.name,
    (linkEnds p).map (fun q => .column (columnRead d (linkColumn q.1 q.2))) ++ [.primaryKey (linkNames p)] ++
      (linkEnds p).map fun q => .foreignKey (reference (linkKey q.1 q.2))⟩

theorem references_linkDefinition (d : Dialect) (p : Resolved) :
    (linkDefinition d p).references = (linkEnds p).map fun q => reference (linkKey q.1 q.2) := by
  have hcolumn (q : Table × Column) :
      Definition.reference? (.column (columnRead d (linkColumn q.1 q.2))) = none := reference_columnRead d _
  have hnone : (linkEnds p).filterMap (fun q =>
      Definition.reference? (.column (columnRead d (linkColumn q.1 q.2)))) = [] :=
    List.filterMap_eq_nil_iff.mpr fun q _ => hcolumn q
  rw [TableDefinition.references, linkDefinition, List.filterMap_append, List.filterMap_append, List.filterMap_map]
  exact congrArg (· ++ [] ++ _) hnone

/-! ## Names -/

theorem plain_append {a b : String} (ha : Plain a) (hb : ∀ c ∈ b.toList, isWord c = true) : Plain (a ++ b) := by
  rw [Plain, String.toList_append]
  exact ⟨by simp [ha.1], List.forall_mem_append.mpr ⟨ha.2, hb⟩⟩

/-- What the columns of link tables are called is neither a word for a constraint nor a table option: it ends with
another letter. -/
theorem declarable_linkColumn (t : Table) (c : Column) : Declarable (linkColumn t c).name := by
  have hid : "_id".toList = ['_', 'i', 'd'] := by decide
  rw [Declarable, linkColumn, String.toList_append, hid]
  constructor
  · intro hkeyword
    obtain ⟨taken, htaken, hword⟩ := dropKeyword_eq_some hkeyword
    rw [List.append_nil] at htaken
    rw [← htaken, List.map_append] at hword
    have hlast := congrArg List.getLast? hword
    rw [getLast?_append_right (by simp)] at hlast
    revert hlast
    decide
  · have hupper : upper (t.name.toList ++ ['_', 'i', 'd']) = upper t.name.toList ++ ['_', 'I', 'D'] := by
      rw [upper, List.flatMap_append]
      rfl
    rw [hupper]
    intro hoption
    simp only [tableOptions, List.mem_cons, List.not_mem_nil, or_false] at hoption
    have hends (o : String) (h : String.ofList (upper t.name.toList ++ ['_', 'I', 'D']) = o) :
        o.toList.getLast? = some 'D' := by
      rw [← h, String.toList_ofList, getLast?_append_right (by simp)]
      rfl
    rcases hoption with h | h
    · exact absurd (hends _ h) (by decide)
    · exact absurd (hends _ h) (by decide)

theorem lineText_linkColumn (d : Dialect) (t : Table) (c : Column) :
    lineText (.column (t.name ++ "_id") [referringType d c, "NOT NULL"]) = columnText d (linkColumn t c) := by
  have hserial : isSerialKey (linkColumn t c) = false := by simp [isSerialKey, linkColumn]
  have hwords : columnWords d (linkColumn t c) = [referringType d c, "NOT NULL"] := by
    simp only [columnWords, hserial, Bool.false_and, Bool.false_eq_true, if_false]
    rfl
  rw [← lineText_column, hwords]
  rfl

/-! ## One link table -/

/-- The command that creates a link table, without its semicolon. -/
def linkStem (d : Dialect) (p : Resolved) : List Char :=
  tableStem d (p.sourceTable.name ++ "_" ++ p.targetTable.name) (linkTexts d p)

theorem text_linkTable (d : Dialect) (p : Resolved) : ((linkTable d p).text {} d).toList = linkStem d p ++ [';'] := by
  rw [linkTable, text_createTable, linkStem]
  simp only [List.map_cons, List.map_nil, lineText_linkColumn, lineText_primaryKey, lineText_foreignKey]
  rfl

section LinkTable

variable {p : Resolved} (h : ∀ q ∈ linkEnds p, Plain q.1.name ∧ Plain q.2.name)

include h

theorem plain_linkColumn : ∀ q ∈ linkEnds p, Plain (linkColumn q.1 q.2).name :=
  fun q hq => plain_append (h q hq).1 (by decide)

theorem plain_linkNames : ∀ n ∈ linkNames p, Plain n := List.forall_mem_map.mpr (plain_linkColumn h)

theorem isScriptLine_linkTexts (d : Dialect) : ∀ x ∈ linkTexts d p, IsScriptLine x := by
  refine List.forall_mem_append.mpr ⟨List.forall_mem_append.mpr ⟨?_, ?_⟩, ?_⟩
  · exact List.forall_mem_map.mpr fun q hq => isScriptLine_columnText (plain_linkColumn h q hq)
  · exact List.forall_mem_singleton.mpr (isScriptLine_keyText (plain_linkNames h))
  · exact List.forall_mem_map.mpr fun q hq =>
      isScriptLine_foreignKeyText (plain_linkColumn h q hq) (h q hq).1 (h q hq).2

theorem read_linkTexts (d : Dialect) :
    (linkTexts d p).map Definition.read = (linkDefinition d p).definitions := by
  have hcolumns : (linkEnds p).map (fun q => Definition.read (columnText d (linkColumn q.1 q.2))) =
      (linkEnds p).map fun q => .column (columnRead d (linkColumn q.1 q.2)) :=
    List.map_congr_left fun q hq => read_columnText (plain_linkColumn h q hq) (declarable_linkColumn _ _)
  have hkeys : (linkEnds p).map (fun q => Definition.read (foreignKeyText (linkKey q.1 q.2))) =
      (linkEnds p).map fun q => .foreignKey (reference (linkKey q.1 q.2)) :=
    List.map_congr_left fun q hq => read_foreignKeyText (plain_linkColumn h q hq) (h q hq).1 (h q hq).2
  rw [linkTexts, List.map_append, List.map_append, List.map_map, List.map_map, List.map_singleton,
    read_keyText (by simp [linkNames, linkEnds]) (plain_linkNames h)]
  exact congrArg₂ (· ++ [.primaryKey (linkNames p)] ++ ·) hcolumns hkeys

theorem plain_linkName : Plain (p.sourceTable.name ++ "_" ++ p.targetTable.name) := by
  have hends := List.forall_mem_cons.mp h
  exact plain_append (plain_append hends.1.1 (by decide)) (List.forall_mem_singleton.mp hends.2).1.2

theorem isStem_linkStem (d : Dialect) : IsStem (linkStem d p) :=
  isStem_tableStem d (plain_linkName h) (isScriptLine_linkTexts h d)

/-- A link table is read back with its columns, its primary key of both and its foreign keys. -/
theorem read_linkStem (d : Dialect) : TableDefinition.read (linkStem d p) = .ok (linkDefinition d p) := by
  have hlines := isScriptLine_linkTexts h d
  rw [linkStem, read_tableStem d (plain_linkName h) fun x hx => (hlines x hx).toIsBodyLine, read_linkTexts h]
  rfl

end LinkTable

/-! ## Diagrams without their relationships between many and many -/

section KeyPart

variable (g : Diagram)

theorem keyed_keyPart : keyed g.keyPart = keyed g := by
  rw [keyed, keyed, Diagram.keyPart, List.filter_filter]
  simp only [Bool.and_self]
  rfl

theorem tableOrder_keyPart : tableOrder g.tables g.keyPart.relationships = tableOrder g.tables g.relationships := by
  refine tableOrder_congr ?_
  rw [dependencies, dependencies, Diagram.keyPart, filterMap_filter_eq_iff]
  intro r _ hr
  have hmany : r.cardinality = .manyToMany := by simpa using hr
  rw [if_neg (by simp [hmany])]

theorem tableTexts_keyPart (d : Dialect) (t : Table) : tableTexts d g.keyPart t = tableTexts d g t := by
  rw [tableTexts, tableTexts, bodyKeys, bodyKeys, ownedKeys, ownedKeys, keyed_keyPart]

end KeyPart

/-! ## Scripts -/

/-- The commands of a script without their semicolons, those of its link tables between those of its tables and those
that add foreign keys. -/
def linkedStems (d : Dialect) (g : Diagram) : List (List Char) :=
  (tableOrder g.tables g.relationships).map (fun t => tableStem d t.name (tableTexts d g t)) ++
    (linking g).map (linkStem d) ++
    if d = .sqlite then [] else (keyed g).map fun p => addKeyStem p.targetTable.name (keyClause p)

theorem toList_write_linked (d : Dialect) (g : Diagram) : (write {} d g).toList = scriptText (linkedStems d g) := by
  have hlinks : (((linking g).map (linkTable d)).map (Command.text {} d)).map String.toList =
      ((linking g).map (linkStem d)).map (· ++ [';']) := by
    rw [List.map_map, List.map_map, List.map_map]
    exact List.map_congr_left fun p _ => text_linkTable d p
  rw [write, text, String.toList_intercalate, commands_eq, List.map_append, List.map_append, List.map_append,
    List.map_append, toList_tableCommands, hlinks, toList_addKeys, ← List.map_append, ← List.map_append]
  rfl

section Script

variable {g : Diagram} (h : Scriptable g.keyPart)

include h

theorem plain_of_mem_linking {p : Resolved} (hp : p ∈ linking g) :
    ∀ q ∈ linkEnds p, Plain q.1.name ∧ Plain q.2.name := by
  obtain ⟨r, -, hr⟩ := List.mem_filterMap.mp hp
  obtain ⟨⟨hs, hsc⟩, ht, htc⟩ := Diagram.resolve_mem hr
  have hplain {t : Table} (ht : t ∈ g.tables) {c : Column} (hc : c ∈ t.columns) : Plain t.name ∧ Plain c.name :=
    ⟨(h.tables t ht).name, ((h.tables t ht).columns c hc).1⟩
  exact List.forall_mem_cons.mpr ⟨hplain hs hsc, List.forall_mem_singleton.mpr (hplain ht htc)⟩

theorem isStem_of_mem_linkedStems (d : Dialect) : ∀ x ∈ linkedStems d g, IsStem x := by
  have hstems := isStem_of_mem_stems (d := d) h
  have horder : tableOrder g.keyPart.tables g.keyPart.relationships = tableOrder g.tables g.relationships :=
    tableOrder_keyPart g
  simp only [stems, horder, tableTexts_keyPart, keyed_keyPart] at hstems
  obtain ⟨htables, hkeys⟩ := List.forall_mem_append.mp hstems
  have hlinks : ∀ x ∈ (linking g).map (linkStem d), IsStem x :=
    List.forall_mem_map.mpr fun p hp => isStem_linkStem (plain_of_mem_linking h hp) d
  exact List.forall_mem_append.mpr ⟨List.forall_mem_append.mpr ⟨htables, hlinks⟩, hkeys⟩

/-- The tables of a written script are those of the diagram and then its link tables. -/
theorem tablesOf_write (d : Dialect) : tablesOf (write {} d g).toList =
    writtenDefinitions d g.keyPart ++ (linking g).map (linkDefinition d) := by
  have hlinks : ((linking g).map (linkStem d)).map TableDefinition.read =
      ((linking g).map (linkDefinition d)).map Except.ok := by
    rw [List.map_map, List.map_map]
    exact List.map_congr_left fun p hp => read_linkStem (plain_of_mem_linking h hp) d
  have hread := read_stems (d := d) h
  have horder : tableOrder g.keyPart.tables g.keyPart.relationships = tableOrder g.tables g.relationships :=
    tableOrder_keyPart g
  simp only [stems, horder, tableTexts_keyPart, keyed_keyPart, List.map_append] at hread
  obtain ⟨htables, hkeys⟩ := List.append_inj hread (by simp [writtenDefinitions, horder])
  have hresults := results_script (isStem_of_mem_linkedStems h d)
  rw [linkedStems, List.map_append, List.map_append, htables, hlinks, hkeys, ← List.map_append] at hresults
  rw [toList_write_linked]
  exact tables_of_results hresults

theorem getElem?_linkTable (d : Dialect) (k : Nat) :
    (tablesOf (write {} d g).toList)[g.tables.length + k]? = (linking g)[k]?.map (linkDefinition d) := by
  have hlength : (writtenDefinitions d g.keyPart).length = g.tables.length := by
    rw [writtenDefinitions, List.length_map]
    exact (perm_tableOrder g.keyPart.relationships h.distinctIds).length_eq
  rw [tablesOf_write h, List.getElem?_append_right (by omega), hlength, Nat.add_sub_cancel_left, List.getElem?_map]

end Script
end Sql
end Erd
