import Erd.Proofs.Sql.Isolation
import Erd.Proofs.Sql.LetterCase.Definition

/-!
# Scripts in capitals

A script in capitals is cut into the same statements on the same lines, and these define the same tables
with their names in capitals. Names are compared without regard to case, so that keys mark the same columns
and foreign keys lead to the same places. What is read differs by the names of tables and columns only.

**Results.**
* `statements_capitals`: the statements of a script stay on their lines.
* `read_table_capitals`: a statement in capitals defines the same table, with its names in capitals.
* `columns_capitals`, `links_capitals`: keys mark and link the same columns.
* `read_toUpper`: reading a script in capitals.
-/
namespace Erd.Sql

open Text

/-! ## Comments and statements -/

/-- Two signs side by side do not come up by writing capitals. -/
theorem no_pair_capitals {x y c : Char} {s : List Char} (hx : x.isAlpha = false) (hy : y.isAlpha = false)
    (h : ∀ t, c = x → s = y :: t → False) (t : List Char) : c.toUpper = x → capitals s = y :: t → False := by
  intro hc ht
  obtain ⟨u, hs, -⟩ := (capitals_eq_cons_iff hy).mp ht
  exact h u ((toUpper_eq_iff hx).mp hc) hs

theorem closesBlock_capitals (s : List Char) : closesBlock (capitals s) = closesBlock s := by
  fun_induction closesBlock s with
  | case1 s => rfl
  | case2 c s h ih =>
    rw [capitals_cons, closesBlock, ih]
    exact no_pair_capitals rfl rfl h
  | case3 => rfl

theorem dropBlocksFrom_capitals (inside : Bool) (s : List Char) :
    dropBlocksFrom inside (capitals s) = capitals (dropBlocksFrom inside s) := by
  fun_induction dropBlocksFrom inside s with
  | case1 => simp [dropBlocksFrom]
  | case2 s hc ih =>
    have hopen : capitals ('/' :: '*' :: s) = '/' :: '*' :: capitals s := rfl
    rw [hopen, dropBlocksFrom, closesBlock_capitals, if_pos hc, ih]
  | case3 s hc =>
    have hopen : capitals ('/' :: '*' :: s) = '/' :: '*' :: capitals s := rfl
    rw [hopen, dropBlocksFrom, closesBlock_capitals, if_neg hc]
  | case4 c s h ih =>
    rw [capitals_cons, dropBlocksFrom, ih, capitals_cons]
    exact no_pair_capitals rfl rfl h
  | case5 s ih =>
    have hclose : capitals ('*' :: '/' :: s) = '*' :: '/' :: capitals s := rfl
    rw [hclose, dropBlocksFrom, ih]
  | case6 s h ih =>
    have hfeed : capitals ('\n' :: s) = '\n' :: capitals s := rfl
    rw [hfeed, dropBlocksFrom, if_pos rfl, ih]
    · rfl
    · exact no_pair_capitals rfl rfl h
  | case7 c s h hc ih =>
    rw [capitals_cons, dropBlocksFrom, if_neg (mt (toUpper_eq_iff rfl).mp hc), ih]
    exact no_pair_capitals rfl rfl h

theorem dropLineCommentsFrom_capitals (inside : Bool) (s : List Char) :
    dropLineCommentsFrom inside (capitals s) = capitals (dropLineCommentsFrom inside s) := by
  fun_induction dropLineCommentsFrom inside s with
  | case1 => simp [dropLineCommentsFrom]
  | case2 s ih => exact ih
  | case3 c s h ih =>
    rw [capitals_cons, dropLineCommentsFrom, ih, capitals_cons]
    exact no_pair_capitals rfl rfl h
  | case4 s ih =>
    have hfeed : capitals ('\n' :: s) = '\n' :: capitals s := rfl
    rw [hfeed, dropLineCommentsFrom, if_pos rfl, ih]
    rfl
  | case5 c s hc ih => rw [capitals_cons, dropLineCommentsFrom, if_neg (mt (toUpper_eq_iff rfl).mp hc), ih]

@[simp] theorem stripComments_capitals (s : List Char) :
    stripComments (capitals s) = capitals (stripComments s) := by
  rw [stripComments, dropBlocks, dropBlocksFrom_capitals, dropLineComments, dropLineCommentsFrom_capitals]
  rfl

/-- The statement in capitals. -/
def Statement.capitals (s : Statement) : Statement := { s with text := Text.capitals s.text }

theorem statementsFrom_capitals (line : Nat) (ps : List (List Char)) :
    statementsFrom line (ps.map capitals) = (statementsFrom line ps).map Statement.capitals := by
  induction ps generalizing line with
  | nil => rfl
  | cons p ps ih =>
    simp only [List.map_cons, statementsFrom, newlines_capitals, isBlankText_capitals, trim_capitals, ih,
      takeWhile_capitals isBlank_toUpper]
    split <;> rfl

theorem statements_capitals (s : List Char) :
    statements (capitals s) = (statements s).map Statement.capitals := by
  rw [statements, stripComments_capitals, splitOn_capitals rfl, statementsFrom_capitals, statements]

/-! ## Tables -/

@[simp] theorem definesTable_capitals (s : List Char) : definesTable (capitals s) = definesTable s := by
  rw [definesTable, phrase_capitals, definesTable]
  cases phrase ["create", "table"] s <;> simp

/-- The name of a table, before which a schema may stand, and the rest. -/
def tableName? (s : List Char) : Option (List Char × List Char) :=
  match looseWord? s with
  | some (_, '.' :: rest) => looseWord? rest
  | other => other

/-- The text from the parenthesis on that it starts with, blanks aside. -/
def bodyStart? (s : List Char) : Option (List Char) :=
  match trimStart s with
  | '(' :: body => some ('(' :: body)
  | _ => none

/-- The head of a table definition in three steps: the announcement, the name and the body. -/
theorem tableHead?_eq (s : List Char) :
    tableHead? s = ((phrase ["create", "table"] s).bind skipBlanks?).bind fun t =>
      (tableName? (((phrase ["if", "not", "exists"] t).bind skipBlanks?).getD t)).bind fun p =>
        (bodyStart? p.2).map fun body => (p.1, body) := by
  rw [tableHead?]
  cases (phrase ["create", "table"] s).bind skipBlanks? with
  | none => rfl
  | some t =>
    simp only [Option.bind_some]
    generalize ((phrase ["if", "not", "exists"] t).bind skipBlanks?).getD t = u
    split
    · next h =>
      have hname : tableName? u = none := h
      rw [hname, Option.bind_none]
    · next name rest h =>
      have hname : tableName? u = some (name, rest) := h
      rw [hname, Option.bind_some]
      show _ = (bodyStart? rest).map fun body => (name, body)
      rw [bodyStart?]
      cases trimStart rest with
      | nil => rfl
      | cons c body => by_cases hc : c = '(' <;> simp [hc]

@[simp] theorem tableName?_capitals (s : List Char) :
    tableName? (capitals s) = (tableName? s).map (Prod.map capitals capitals) := by
  rw [tableName?, tableName?, looseWord?_capitals]
  cases looseWord? s with
  | none => rfl
  | some p =>
    obtain ⟨word, rest⟩ := p
    cases rest with
    | nil => rfl
    | cons c u =>
      by_cases hc : c = '.'
      · subst hc
        exact looseWord?_capitals u
      · simp [hc]

@[simp] theorem bodyStart?_capitals (s : List Char) :
    bodyStart? (capitals s) = (bodyStart? s).map capitals := by
  rw [bodyStart?, bodyStart?, trimStart_capitals]
  cases trimStart s with
  | nil => rfl
  | cons c u => by_cases hc : c = '(' <;> simp [hc]

@[simp] theorem tableHead?_capitals (s : List Char) :
    tableHead? (capitals s) = (tableHead? s).map (Prod.map capitals capitals) := by
  rw [tableHead?_eq, tableHead?_eq, phrase_capitals, bind_capitals skipBlanks?_capitals]
  refine bind_capitals (fun t => ?_) _
  rw [phrase_capitals, bind_capitals skipBlanks?_capitals, Option.getD_map, tableName?_capitals]
  cases tableName? (((phrase ["if", "not", "exists"] t).bind skipBlanks?).getD t) with
  | none => rfl
  | some p =>
    simp only [Option.map_some, Option.bind_some, Prod.map_snd, bodyStart?_capitals]
    cases bodyStart? p.2 <;> rfl

/-- The table with its names in capitals. -/
def TableDefinition.capitals (t : TableDefinition) : TableDefinition :=
  ⟨t.name.toUpper, t.definitions.map Definition.capitals⟩

/-- Capitals change nothing about a statement but the names. -/
theorem read_table_capitals (s : List Char) :
    TableDefinition.read (capitals s) = (TableDefinition.read s).map TableDefinition.capitals := by
  rw [TableDefinition.read, TableDefinition.read, definesTable_capitals, tableHead?_capitals]
  split
  · cases tableHead? s with
    | none => rfl
    | some p =>
      obtain ⟨name, rest⟩ := p
      simp only [Option.map_some, Option.bind_some, Prod.map_apply, body?_capitals]
      cases body? rest with
      | none => rfl
      | some body =>
        simp only [Option.map_some, definitions_capitals, ofList_capitals, List.map_map]
        have hread : Definition.read ∘ capitals = Definition.capitals ∘ Definition.read :=
          funext read_definition_capitals
        rw [hread, ← List.map_map]
        rfl
  · rfl

/-! ## Columns with their keys -/

theorem column?_capitals (d : Definition) :
    d.capitals.column? = d.column?.map ColumnDefinition.capitals := by cases d <;> rfl

theorem reference?_capitals (d : Definition) :
    d.capitals.reference? = d.reference?.map Reference.capitals := by
  cases d <;> rfl

theorem primaryKeyColumns_capitals (d : Definition) :
    d.capitals.primaryKeyColumns = d.primaryKeyColumns.map String.toUpper := by cases d <;> rfl

theorem uniqueColumn?_capitals (d : Definition) :
    d.capitals.uniqueColumn? = d.uniqueColumn?.map String.toUpper := by
  cases d with
  | unique columns =>
    match columns with
    | [] => rfl
    | [_] => rfl
    | _ :: _ :: _ => rfl
  | _ => rfl

theorem outline_column_capitals (c : ColumnDefinition) : c.capitals.outline = c.outline.capitals := by
  cases c with
  | mk name spelling type isPrimaryKey isUnique isNotNull countsUp reference => cases reference <;> rfl

/-- Marking columns one name after the other marks the same ones in capitals. -/
theorem foldl_changeNamed_capitals {f : Outline.Column → Outline.Column} (hf : ∀ c, f c.capitals = (f c).capitals)
    (names : List String) (cs : List Outline.Column) :
    (names.map String.toUpper).foldl (fun cs name => Outline.changeNamed name f cs)
        (cs.map Outline.Column.capitals) =
      (names.foldl (fun cs name => Outline.changeNamed name f cs) cs).map Outline.Column.capitals := by
  rw [List.foldl_map]
  exact List.foldl_hom (List.map Outline.Column.capitals) fun cs name =>
    Outline.changeNamed_capitals hf name cs

namespace TableDefinition

variable (t : TableDefinition)

theorem ownColumns_capitals : t.capitals.ownColumns = t.ownColumns.map Outline.Column.capitals := by
  rw [ownColumns, capitals, filterMap_map_of_comm column?_capitals, List.map_map, ownColumns, List.map_map]
  exact List.map_congr_left fun c _ => outline_column_capitals c

theorem columns_capitals : t.capitals.columns = t.columns.map Outline.Column.capitals := by
  have hkeys : t.capitals.definitions.flatMap Definition.primaryKeyColumns =
      (t.definitions.flatMap Definition.primaryKeyColumns).map String.toUpper := by
    rw [capitals, List.flatMap_map, List.map_flatMap]
    exact congrArg (List.flatMap · t.definitions) (funext primaryKeyColumns_capitals)
  have huniques : t.capitals.definitions.filterMap Definition.uniqueColumn? =
      (t.definitions.filterMap Definition.uniqueColumn?).map String.toUpper :=
    filterMap_map_of_comm uniqueColumn?_capitals t.definitions
  rw [columns, hkeys, huniques, ownColumns_capitals, columns]
  simp only [foldl_changeNamed_capitals (f := markPrimaryKey) fun _ => rfl,
    foldl_changeNamed_capitals (f := markUnique) fun _ => rfl]

theorem references_capitals : t.capitals.references = t.references.map Reference.capitals :=
  filterMap_map_of_comm reference?_capitals t.definitions

theorem outline_capitals : t.capitals.outline = t.outline.capitals := by
  rw [outline, columns_capitals]
  rfl

end TableDefinition

/-! ## Links -/

theorem linked?_link_capitals (tables : List Outline.Table) (i : Nat) (owner : Outline.Table) (r : Reference) :
    linked? (link (tables.map Outline.Table.capitals) i owner.capitals r.capitals) =
      linked? (link tables i owner r) := by
  rw [link, link, Reference.capitals, Outline.tableNamed?_capitals]
  cases Outline.tableNamed? tables r.table with
  | none => rfl
  | some p =>
    obtain ⟨k, referenced⟩ := p
    simp only [Option.map_some, Prod.map_apply, id_eq, Outline.columnNamed?_capitals]
    cases referenced.columnNamed? r.referenced with
    | none => rfl
    | some parent =>
      cases owner.columnNamed? r.column with
      | none => rfl
      | some child =>
        have hunique : (owner.capitals.columns[child]?).any (fun c => c.constraints.isUnique) =
            (owner.columns[child]?).any fun c => c.constraints.isUnique := by
          rw [Outline.Table.capitals, List.getElem?_map, Option.any_map]
          rfl
        simp only [hunique]

theorem map_outline_capitals (tables : List TableDefinition) :
    (tables.map TableDefinition.capitals).map TableDefinition.outline =
      (tables.map TableDefinition.outline).map Outline.Table.capitals := by
  rw [List.map_map, List.map_map]
  exact List.map_congr_left fun t _ => t.outline_capitals

/-- The foreign keys that lead somewhere lead to the same places. -/
theorem links_capitals (tables : List TableDefinition) :
    (links (tables.map TableDefinition.capitals)).filterMap linked? = (links tables).filterMap linked? := by
  rw [links, links, List.filterMap_flatten, List.filterMap_flatten, map_outline_capitals]
  refine congrArg List.flatten (List.ext_getElem (by simp) fun i hi hi' => ?_)
  simp only [List.getElem_map, List.getElem_mapIdx, TableDefinition.references_capitals,
    TableDefinition.outline_capitals, List.filterMap_map]
  exact congrArg (List.filterMap · _) (funext fun r => linked?_link_capitals _ i _ r)

theorem markLinked_capitals (found : List Outline.Link) (i : Nat) (t : Outline.Table) :
    markLinked found i t.capitals = (markLinked found i t).capitals := by
  have hmark (j : Nat) (c : Outline.Column) :
      (if found.any (fun l => l.target == ⟨i, j⟩) then markForeignKey c.capitals else c.capitals) =
        (if found.any (fun l => l.target == ⟨i, j⟩) then markForeignKey c else c).capitals := by
    split <;> rfl
  exact congrArg (Outline.Table.mk t.name.toUpper) (mapIdx_map_of_comm hmark t.columns)

theorem outline_capitals (tables : List TableDefinition) :
    outline (tables.map TableDefinition.capitals) = (outline tables).capitals := by
  rw [outline, links_capitals, map_outline_capitals, mapIdx_map_of_comm (markLinked_capitals _)]
  rfl

/-! ## The whole -/

/-- The outcome with the names of its table in capitals. -/
def Outcome.capitals (o : Outcome) : Outcome := { o with result := o.result.map TableDefinition.capitals }

/-- The statements of a script in capitals come to the same on the same lines. -/
theorem outcomes_capitals (s : List Char) : outcomes (capitals s) = (outcomes s).map Outcome.capitals := by
  rw [outcomes, statements_capitals, List.map_map, outcomes, List.map_map]
  exact List.map_congr_left fun t _ => congrArg (Outcome.mk t.line) (read_table_capitals t.text)

theorem tablesOf_capitals (s : List Char) :
    tablesOf (capitals s) = (tablesOf s).map TableDefinition.capitals := by
  have htable (o : Outcome) : o.capitals.table? = o.table?.map TableDefinition.capitals := by
    obtain ⟨line, result⟩ := o
    cases result <;> rfl
  rw [tablesOf, outcomes_capitals, filterMap_map_of_comm htable, tablesOf]

theorem faultsOf_capitals (s : List Char) : faultsOf (capitals s) = faultsOf s := by
  have hfault : Outcome.fault? ∘ Outcome.capitals = Outcome.fault? := by
    funext ⟨line, result⟩
    cases result <;> rfl
  rw [faultsOf, outcomes_capitals, List.filterMap_map, hfault, faultsOf]

/-- Reading does not depend on case: of a script in capitals the same is read, with the names in capitals. -/
theorem read_toUpper (sheet : Outline.Sheet) (dialect : Dialect) (script : String) :
    read sheet dialect script.toUpper = (read sheet dialect script).map Reading.capitals := by
  rw [read, read]
  refine Draft.reading_capitals ?_ ?_ sheet
  · rw [outline_draft, outline_draft, toList_toUpper, tablesOf_capitals, outline_capitals]
  · rw [diagnostics_draft, diagnostics_draft, toList_toUpper, faultsOf_capitals]

end Erd.Sql
