import Erd.Proofs.Sql.ForeignKeys
import Erd.Proofs.Sql.Script

/-!
# Written tables

The lines of a table are read one by one. What a dialect says of a column on its own line and what it
leaves to the line of the primary key make up the flags of the column together; the names of columns are
distinct, so the line of the primary key marks the columns that it was written for and no others.

**Results.**
* `read_table`: the definition of a table is read as it was written.
* `columns_writtenDefinition`: its columns have the flags of both lines.
* `references_writtenDefinition`: its foreign keys are those of its body.
-/
namespace Erd.Sql

open Text

/-! ## Changing columns by name -/

section ChangeNamed

variable {f : Outline.Column → Outline.Column} {cs : List Outline.Column}

theorem changeNamed_eq_map (hn : (cs.map fun c => nameKey c.name).Nodup) (name : String) :
    Outline.changeNamed name f cs = cs.map fun c => if nameKey c.name = nameKey name then f c else c := by
  induction cs with
  | nil => rfl
  | cons c cs ih =>
    obtain ⟨hc, hn⟩ := List.nodup_cons.mp hn
    rw [Outline.changeNamed, List.map_cons]
    split
    · next h =>
      have hrest : cs.map (fun c => if nameKey c.name = nameKey name then f c else c) = cs := by
        refine (List.map_congr_left fun x hx => if_neg fun hk => hc ?_).trans (List.map_id cs)
        exact List.mem_map.mpr ⟨x, hx, hk.trans h.symm⟩
      rw [hrest]
    · rw [ih hn]

/-- Changing columns one after another changes each that is named, where a second change adds nothing. -/
theorem foldl_changeNamed (hf : ∀ c, (f c).name = c.name) (hff : ∀ c, f (f c) = f c)
    (hn : (cs.map fun c => nameKey c.name).Nodup) (names : List String) :
    names.foldl (fun cs name => Outline.changeNamed name f cs) cs =
      cs.map fun c => if nameKey c.name ∈ names.map nameKey then f c else c := by
  induction names generalizing cs with
  | nil => simp
  | cons name names ih =>
    have hname (c : Outline.Column) : (if nameKey c.name = nameKey name then f c else c).name = c.name := by
      split
      · exact hf c
      · rfl
    have hkeys : ((cs.map fun c => if nameKey c.name = nameKey name then f c else c).map
        fun c => nameKey c.name) = cs.map fun c => nameKey c.name := by
      rw [List.map_map]
      exact List.map_congr_left fun c _ => congrArg nameKey (hname c)
    rw [List.foldl_cons, changeNamed_eq_map hn, ih (by rw [hkeys]; exact hn), List.map_map]
    refine List.map_congr_left fun c _ => ?_
    simp only [Function.comp_apply, hname, List.map_cons, List.mem_cons]
    by_cases h1 : nameKey c.name = nameKey name
    · simp [h1, hff]
    · simp [h1]

end ChangeNamed

/-! ## What can be written -/

/-- A table whose names are words that can be declared and, for its columns, differ by more than case. -/
structure ScriptableTable (t : Table) : Prop where
  name : Plain t.name
  columns : ∀ c ∈ t.columns, Plain c.name ∧ Declarable c.name
  distinctColumns : (t.columns.map fun c => nameKey c.name).Nodup

/-- A diagram whose ids do not repeat, whose tables can be written and differ in their names by more than
case, and that has no relationship between many and many. -/
structure Scriptable (g : Diagram) : Prop where
  distinctIds : (g.tables.map Table.id).Nodup
  tables : ∀ t ∈ g.tables, ScriptableTable t
  distinctTables : (g.tables.map fun t => nameKey t.name).Nodup
  noLinkTables : ∀ r ∈ g.relationships, r.cardinality ≠ .manyToMany

/-! ## Tables -/

/-- The columns that a dialect lists in the line of the primary key. -/
def keyNames (d : Dialect) (t : Table) : List String := (t.columns.filter (inKeyLine d)).map Column.name

/-- The foreign keys in the body of a table. -/
def bodyKeys (d : Dialect) (g : Diagram) (t : Table) : List KeyClause :=
  if d = .sqlite then ownedKeys g t else []

/-- The line of the primary key, as text. -/
def keyTexts (d : Dialect) (t : Table) : List (List Char) :=
  match keyNames d t with
  | [] => []
  | names => [keyText names]

/-- The lines of a table, as text. -/
def tableTexts (d : Dialect) (g : Diagram) (t : Table) : List (List Char) :=
  t.columns.map (columnText d) ++ keyTexts d t ++ (bodyKeys d g t).map foreignKeyText

/-- The reference of a foreign key. -/
def reference (k : KeyClause) : Reference := ⟨k.column, k.table, k.referenced⟩

/-- The definition of a column that is written. -/
def columnRead (d : Dialect) (c : Column) : ColumnDefinition :=
  columnDefinition c.name.toList (typeName d c.type).toList (settings d c)

/-- The settings that are written refer to nothing. -/
theorem reference_columnRead (d : Dialect) (c : Column) : (columnRead d c).reference = none := by
  rw [columnRead, columnDefinition, (settings_flags d c).1]
  rfl

/-- The definition of the primary key, if there is a line of it. -/
def keyDefinitions (d : Dialect) (t : Table) : List Definition :=
  match keyNames d t with
  | [] => []
  | names => [.primaryKey names]

/-- The definition of a table that is written. -/
def writtenDefinition (d : Dialect) (g : Diagram) (t : Table) : TableDefinition :=
  ⟨t.name, t.columns.map (fun c => .column (columnRead d c)) ++ keyDefinitions d t ++
    (bodyKeys d g t).map fun k => .foreignKey (reference k)⟩

theorem text_createTable_table (d : Dialect) (g : Diagram) (t : Table) :
    ((createTable d t (if d = .sqlite then (ownedKeys g t).map .foreignKey else [])).text {} d).toList =
      tableStem d t.name (tableTexts d g t) ++ [';'] := by
  have hlines : (t.columns.map (fun c => BodyLine.column c.name (columnWords d c)) ++ keyLine d t.columns ++
      (if d = Dialect.sqlite then (ownedKeys g t).map BodyLine.foreignKey else [])).map lineText =
        tableTexts d g t := by
    have hcols : (t.columns.map fun c => BodyLine.column c.name (columnWords d c)).map lineText =
        t.columns.map (columnText d) := by
      rw [List.map_map]
      exact List.map_congr_left fun c _ => lineText_column d c
    have hkey : (keyLine d t.columns).map lineText = keyTexts d t := by
      unfold keyLine keyTexts keyNames
      cases (t.columns.filter (inKeyLine d)).map Column.name with
      | nil => rfl
      | cons n ns => exact congrArg (fun x => [x]) (lineText_primaryKey (n :: ns))
    have hfks : (if d = Dialect.sqlite then (ownedKeys g t).map BodyLine.foreignKey else []).map lineText =
        (bodyKeys d g t).map foreignKeyText := by
      unfold bodyKeys
      split
      · rw [List.map_map]
        refine List.map_congr_left fun k _ => ?_
        rw [Function.comp_apply, lineText_foreignKey]
      · rfl
    rw [List.map_append, List.map_append, hcols, hkey, hfks, tableTexts]
  rw [createTable, text_createTable, hlines]

section Table

variable {d : Dialect} {g : Diagram} {t : Table}

/-- The names in a foreign key are words. -/
theorem plain_keyClause (h : Scriptable g) {p : Resolved} (hp : p ∈ keyed g) :
    Plain (keyClause p).column ∧ Plain (keyClause p).table ∧ Plain (keyClause p).referenced := by
  obtain ⟨⟨⟨hs, hsc⟩, ht, htc⟩, -⟩ := mem_keyed hp
  exact ⟨((h.tables _ ht).columns _ htc).1, (h.tables _ hs).name, ((h.tables _ hs).columns _ hsc).1⟩

theorem plain_of_mem_bodyKeys (h : Scriptable g) {k : KeyClause} (hk : k ∈ bodyKeys d g t) :
    Plain k.column ∧ Plain k.table ∧ Plain k.referenced := by
  unfold bodyKeys at hk
  split at hk
  · obtain ⟨p, hp, rfl⟩ := List.mem_map.mp hk
    exact plain_keyClause h (List.mem_of_mem_filter hp)
  · cases hk

theorem plain_of_mem_keyNames (h : ScriptableTable t) {n : String} (hn : n ∈ keyNames d t) : Plain n := by
  obtain ⟨c, hc, rfl⟩ := List.mem_map.mp hn
  exact (h.columns c (List.mem_of_mem_filter hc)).1

theorem isScriptLine_tableTexts (h : Scriptable g) (ht : t ∈ g.tables) :
    ∀ x ∈ tableTexts d g t, IsScriptLine x := by
  intro x hx
  have htable := h.tables t ht
  rcases List.mem_append.mp hx with hx | hx
  · rcases List.mem_append.mp hx with hx | hx
    · obtain ⟨c, hc, rfl⟩ := List.mem_map.mp hx
      exact isScriptLine_columnText (htable.columns c hc).1
    · have hkey : x = keyText (keyNames d t) := by
        unfold keyTexts at hx
        split at hx
        · cases hx
        · exact List.mem_singleton.mp hx
      rw [hkey]
      exact isScriptLine_keyText fun n hn => plain_of_mem_keyNames htable hn
  · obtain ⟨k, hk, rfl⟩ := List.mem_map.mp hx
    obtain ⟨h1, h2, h3⟩ := plain_of_mem_bodyKeys h hk
    exact isScriptLine_foreignKeyText h1 h2 h3

/-- The definition of a table is read as it was written. -/
theorem read_table (h : Scriptable g) (ht : t ∈ g.tables) :
    TableDefinition.read (tableStem d t.name (tableTexts d g t)) = .ok (writtenDefinition d g t) := by
  have htable := h.tables t ht
  have hcols : (t.columns.map (columnText d)).map Definition.read =
      t.columns.map fun c => .column (columnRead d c) := by
    rw [List.map_map]
    exact List.map_congr_left fun c hc => read_columnText (htable.columns c hc).1 (htable.columns c hc).2
  have hkey : (keyTexts d t).map Definition.read = keyDefinitions d t := by
    unfold keyTexts keyDefinitions
    cases hk : keyNames d t with
    | nil => rfl
    | cons n ns =>
      have hread := read_keyText (List.cons_ne_nil n ns) fun m hm =>
        plain_of_mem_keyNames (d := d) htable (hk ▸ hm)
      exact congrArg (fun x => [x]) hread
  have hfks : ((bodyKeys d g t).map foreignKeyText).map Definition.read =
      (bodyKeys d g t).map fun k => .foreignKey (reference k) := by
    rw [List.map_map]
    refine List.map_congr_left fun k hk => ?_
    obtain ⟨h1, h2, h3⟩ := plain_of_mem_bodyKeys h hk
    exact read_foreignKeyText h1 h2 h3
  rw [read_tableStem d htable.name fun x hx => (isScriptLine_tableTexts h ht x hx).toIsBodyLine, tableTexts,
    List.map_append, List.map_append, hcols, hkey, hfks, writtenDefinition]

/-- A table as it is read back, before its keys are linked. -/
def readBackTable (d : Dialect) (t : Table) : Outline.Table := ⟨t.name, t.columns.map (readBack d)⟩

theorem eq_of_mem_keyDefinitions {x : Definition} (hx : x ∈ keyDefinitions d t) :
    x = .primaryKey (keyNames d t) := by
  unfold keyDefinitions at hx
  split at hx
  · cases hx
  · exact List.mem_singleton.mp hx

theorem flatMap_keyDefinitions :
    (keyDefinitions d t).flatMap Definition.primaryKeyColumns = keyNames d t := by
  unfold keyDefinitions
  cases keyNames d t with
  | nil => rfl
  | cons n ns => simp [Definition.primaryKeyColumns]

/-- What is picked from the definitions of a table is picked from its columns, its primary key and its
foreign keys. -/
theorem filterMap_definitions {β : Type} (f : Definition → Option β)
    (hkey : ∀ names, f (.primaryKey names) = none) :
    (writtenDefinition d g t).definitions.filterMap f =
      t.columns.filterMap (fun c => f (.column (columnRead d c))) ++
        (bodyKeys d g t).filterMap fun k => f (.foreignKey (reference k)) := by
  have hnone : (keyDefinitions d t).filterMap f = [] := by
    refine List.filterMap_eq_nil_iff.mpr fun x hx => ?_
    rw [eq_of_mem_keyDefinitions hx]
    exact hkey _
  rw [writtenDefinition, List.filterMap_append, List.filterMap_append, hnone, List.append_nil,
    List.filterMap_map, List.filterMap_map]
  rfl

theorem ownColumns_writtenDefinition :
    (writtenDefinition d g t).ownColumns = t.columns.map (ownColumn d) := by
  have hfks : (bodyKeys d g t).filterMap (fun k => Definition.column? (.foreignKey (reference k))) = [] :=
    List.filterMap_eq_nil_iff.mpr fun k _ => rfl
  have hcols : t.columns.filterMap (fun c => Definition.column? (.column (columnRead d c))) =
      t.columns.map (columnRead d) := List.filterMap_eq_map (f := columnRead d) ▸ rfl
  rw [TableDefinition.ownColumns, filterMap_definitions _ fun names => rfl, hfks, hcols, List.append_nil,
    List.map_map]
  rfl

/-- No reference stands in the line of a column, so the foreign keys are those of the body. -/
theorem references_writtenDefinition :
    (writtenDefinition d g t).references = (bodyKeys d g t).map reference := by
  have hcols : t.columns.filterMap (fun c => Definition.reference? (.column (columnRead d c))) = [] :=
    List.filterMap_eq_nil_iff.mpr fun c _ => reference_columnRead d c
  have hfks : (bodyKeys d g t).filterMap (fun k => Definition.reference? (.foreignKey (reference k))) =
      (bodyKeys d g t).map reference := List.filterMap_eq_map (f := reference) ▸ rfl
  rw [TableDefinition.references, filterMap_definitions _ fun names => rfl, hcols, hfks, List.nil_append]

/-- No column is written as unique by a line of its own. -/
theorem uniqueColumns_writtenDefinition :
    (writtenDefinition d g t).definitions.filterMap Definition.uniqueColumn? = [] := by
  have hcols : t.columns.filterMap (fun c => Definition.uniqueColumn? (.column (columnRead d c))) = [] :=
    List.filterMap_eq_nil_iff.mpr fun c _ => rfl
  have hfks : (bodyKeys d g t).filterMap (fun k =>
      Definition.uniqueColumn? (.foreignKey (reference k))) = [] :=
    List.filterMap_eq_nil_iff.mpr fun k _ => rfl
  rw [filterMap_definitions _ fun names => rfl, hcols, hfks, List.append_nil]

theorem primaryKeyColumns_writtenDefinition :
    (writtenDefinition d g t).definitions.flatMap Definition.primaryKeyColumns = keyNames d t := by
  have hcols : (t.columns.map fun c => Definition.column (columnRead d c)).flatMap
      Definition.primaryKeyColumns = [] := by
    rw [List.flatMap_map]
    exact List.flatMap_eq_nil_iff.mpr fun c _ => rfl
  have hfks : ((bodyKeys d g t).map fun k => Definition.foreignKey (reference k)).flatMap
      Definition.primaryKeyColumns = [] := by
    rw [List.flatMap_map]
    exact List.flatMap_eq_nil_iff.mpr fun k _ => rfl
  rw [writtenDefinition, List.flatMap_append, List.flatMap_append, hcols, hfks, flatMap_keyDefinitions,
    List.nil_append, List.append_nil]

/-- A name is in the line of the primary key exactly if its own column is listed there. -/
theorem mem_keyNames (h : ScriptableTable t) {c : Column} (hc : c ∈ t.columns) :
    nameKey c.name ∈ (keyNames d t).map nameKey ↔ inKeyLine d c = true := by
  rw [keyNames, List.map_map, List.mem_map]
  constructor
  · rintro ⟨e, he, hk⟩
    obtain ⟨het, hin⟩ := List.mem_filter.mp he
    rwa [← List.inj_on_of_nodup_map h.distinctColumns het hc hk]
  · exact fun hin => ⟨c, List.mem_filter.mpr ⟨hc, hin⟩, rfl⟩

/-- The columns of a table are read back with the flags of their own lines and of the primary key's. -/
theorem columns_writtenDefinition (h : ScriptableTable t) :
    (writtenDefinition d g t).columns = t.columns.map (readBack d) := by
  have hname (c : Column) : (ownColumn d c).name = c.name := String.ofList_toList
  have hnodup : ((t.columns.map (ownColumn d)).map fun c => nameKey c.name).Nodup := by
    have hkeys : ((t.columns.map (ownColumn d)).map fun c => nameKey c.name) =
        t.columns.map fun c => nameKey c.name := by
      rw [List.map_map]
      exact List.map_congr_left fun c _ => congrArg nameKey (hname c)
    rw [hkeys]
    exact h.distinctColumns
  rw [TableDefinition.columns, uniqueColumns_writtenDefinition, primaryKeyColumns_writtenDefinition,
    ownColumns_writtenDefinition, List.foldl_nil,
    foldl_changeNamed (f := markPrimaryKey) (fun c => rfl) (fun c => rfl) hnodup, List.map_map]
  refine List.map_congr_left fun c hc => ?_
  rw [Function.comp_apply, hname, ← ownColumn_marked]
  exact if_congr (mem_keyNames h hc) rfl rfl

theorem outline_writtenDefinition (h : ScriptableTable t) :
    (writtenDefinition d g t).outline = readBackTable d t := by
  rw [TableDefinition.outline, columns_writtenDefinition h]
  rfl

end Table

end Erd.Sql
