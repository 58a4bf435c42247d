import Erd.Proofs.Sql.Declaration
import Erd.Proofs.Sql.Isolation

/-!
# What becomes of the definitions in a body

Where the body of a table is found, the table is there with a column for each definition that declares one, and
nothing is complained about. Keys, unique constraints, checks and indexes give no column. A definition that is none
of these and declares no column is lost without a trace: the complaints about a script are those about the
statements whose bodies are not found, and no others.

**Results.**
* `tablesOf_eq_bodies`, `lines_faultsOf`: a statement is a table or a complaint by whether its body is found.
* `names_columns`, `names_draw`: the columns of a diagram are called as they are declared.
* `accounts_definitions`: each definition of a body gives one column, is an item or is lost.
* `body_accounted`: the account of a script, and what becomes of a name with a type.
* `not_kept_cars`: a column that is lost.
-/
namespace Erd.Sql

open Text

/-! ## Bodies -/

/-- The name and the body of the table that a statement defines, if its body is found. -/
def tableBody? (s : List Char) : Option (List Char × List Char) :=
  if definesTable s then (tableHead? s).bind fun (name, rest) => (body? rest).map fun body => (name, body)
  else none

/-- The table with a name and a body. -/
def tableOf (q : List Char × List Char) : TableDefinition :=
  ⟨String.ofList q.1, (definitions q.2).map Definition.read⟩

/-- The names and bodies of the tables that the statements of a script define. -/
def bodies (script : List Char) : List (List Char × List Char) :=
  (statements script).filterMap fun x => tableBody? x.text

/-- A statement gives the table with its name and body. -/
theorem read_of_tableBody? {s : List Char} {q : List Char × List Char} (h : tableBody? s = some q) :
    TableDefinition.read s = .ok (tableOf q) := by
  unfold tableBody? at h
  split at h
  · next hdefines =>
    rw [TableDefinition.read, if_pos hdefines, h]
    rfl
  · cases h

/-- Without them it has a fault. -/
theorem read_of_tableBody?_none {s : List Char} (h : tableBody? s = none) :
    ∃ f, TableDefinition.read s = .error f := by
  unfold tableBody? at h
  split at h
  · next hdefines => exact ⟨.malformed, by rw [TableDefinition.read, if_pos hdefines, h]⟩
  · next hdefines => exact ⟨.unsupported, by rw [TableDefinition.read, if_neg hdefines]⟩

theorem exists_tableBody? {s : List Char} {t : TableDefinition} (h : TableDefinition.read s = .ok t) :
    ∃ q, tableBody? s = some q ∧ t = tableOf q := by
  cases hq : tableBody? s with
  | none =>
    obtain ⟨f, hf⟩ := read_of_tableBody?_none hq
    rw [h] at hf
    cases hf
  | some q =>
    rw [read_of_tableBody? hq] at h
    exact ⟨q, rfl, (Except.ok.inj h).symm⟩

theorem tableHead?_of_tableBody? {s name body : List Char} (h : tableBody? s = some (name, body)) :
    ∃ rest, tableHead? s = some (name, rest) := by
  unfold tableBody? at h
  split at h
  · obtain ⟨⟨name', rest⟩, hhead, hbody⟩ := Option.bind_eq_some_iff.mp h
    obtain ⟨body', -, hpair⟩ := Option.map_eq_some_iff.mp hbody
    cases hpair
    exact ⟨rest, hhead⟩
  · cases h

/-- What is a column of a table is read as one from its body. -/
theorem exists_read_of_mem_columns {q : List Char × List Char} {c : ColumnDefinition}
    (h : c ∈ (tableOf q).definitions.filterMap Definition.column?) : ∃ d, Definition.read d = .column c := by
  obtain ⟨definition, hd, hcolumn⟩ := List.mem_filterMap.mp h
  obtain ⟨d, -, rfl⟩ := List.mem_map.mp hd
  refine ⟨d, ?_⟩
  cases hread : Definition.read d with
  | column e =>
    rw [hread] at hcolumn
    cases hcolumn
    rfl
  | _ =>
    rw [hread] at hcolumn
    cases hcolumn

/-- The tables of a script are those whose bodies are found. -/
theorem tablesOf_eq_bodies (script : List Char) : tablesOf script = (bodies script).map tableOf := by
  rw [tablesOf, outcomes, List.filterMap_map, bodies, List.map_filterMap]
  refine List.filterMap_congr fun x _ => ?_
  cases hq : tableBody? x.text with
  | none =>
    obtain ⟨f, hf⟩ := read_of_tableBody?_none hq
    simp [Outcome.table?, hf]
  | some q => simp [Outcome.table?, read_of_tableBody? hq]

/-- The faults of a script are on the lines of the statements whose bodies are not found. -/
theorem lines_faultsOf (script : List Char) : (faultsOf script).map Prod.fst =
    ((statements script).filter fun x => (tableBody? x.text).isNone).map Statement.line := by
  rw [faultsOf, outcomes, List.filterMap_map, List.map_filterMap, ← List.filterMap_eq_filter, List.map_filterMap]
  refine List.filterMap_congr fun x _ => ?_
  cases hq : tableBody? x.text with
  | none =>
    obtain ⟨f, hf⟩ := read_of_tableBody?_none hq
    simp [Outcome.fault?, hf, Option.guard, hq]
  | some q => simp [Outcome.fault?, read_of_tableBody? hq, Option.guard, hq]

/-! ## Names of columns -/

theorem names_changeNamed {f : Outline.Column → Outline.Column} (hf : ∀ c, (f c).name = c.name) (name : String)
    (cs : List Outline.Column) : (Outline.changeNamed name f cs).map (·.name) = cs.map (·.name) := by
  induction cs with
  | nil => rfl
  | cons c cs ih =>
    rw [Outline.changeNamed]
    split
    · rw [List.map_cons, List.map_cons, hf]
    · rw [List.map_cons, List.map_cons, ih]

theorem names_foldl_changeNamed {f : Outline.Column → Outline.Column} (hf : ∀ c, (f c).name = c.name)
    (names : List String) (cs : List Outline.Column) :
    (names.foldl (fun cs name => Outline.changeNamed name f cs) cs).map (·.name) = cs.map (·.name) := by
  induction names generalizing cs with
  | nil => rfl
  | cons n names ih => rw [List.foldl_cons, ih, names_changeNamed hf]

/-- Keys and unique constraints rename nothing. -/
theorem names_columns (t : TableDefinition) : t.columns.map (·.name) = t.ownColumns.map (·.name) := by
  rw [TableDefinition.columns, names_foldl_changeNamed (f := markUnique) fun _ => rfl,
    names_foldl_changeNamed (f := markPrimaryKey) fun _ => rfl]

/-- Nor do links. -/
theorem names_markLinked (links : List Outline.Link) (i : Nat) (t : Outline.Table) :
    (markLinked links i t).columns.map (·.name) = t.columns.map (·.name) := by
  refine List.ext_getElem (by simp [markLinked]) fun j hj hj' => ?_
  simp only [markLinked, List.getElem_map, List.getElem_mapIdx]
  split
  · rfl
  · rfl

/-- The columns of the diagram of tables are called as they are defined. -/
theorem names_draw (ts : List TableDefinition) (s : Outline.Sheet) :
    ((outline ts).draw s).tables.map (fun t => (t.name, t.columns.map Column.name)) =
      ts.map fun t => (t.name, t.ownColumns.map (·.name)) := by
  have hdrawn := congrArg (List.map fun o : Outline.Table => (o.name, o.columns.map (·.name)))
    (Outline.outlines_draw (o := outline ts) (s := s))
  rw [List.map_map] at hdrawn
  have hnames : ((outline ts).draw s).tables.map (fun t => (t.name, t.columns.map Column.name)) =
      ((outline ts).draw s).tables.map ((fun o => (o.name, o.columns.map (·.name))) ∘ Table.outline) := by
    refine List.map_congr_left fun t _ => ?_
    simp [Table.outline, Column.outline, Function.comp_def]
  rw [hnames, hdrawn]
  refine List.ext_getElem (by simp [outline]) fun i hi hi' => ?_
  simp only [outline, List.getElem_map, List.getElem_mapIdx, names_markLinked, TableDefinition.outline,
    names_columns]
  rfl

/-! ## Definitions -/

/-- An account of definitions and the names of columns: in their order, each definition gives one column of the
name that it declares, is an item or is lost, and there are no further columns. -/
inductive Accounts : List (List Char) → List String → Prop where
  | nil : Accounts [] []
  | column {d name : List Char} {ds : List (List Char)} {names : List String} (hd : Declares d name)
    (h : Accounts ds names) : Accounts (d :: ds) (String.ofList name :: names)
  | item {d : List Char} {ds : List (List Char)} {names : List String} (hd : IsItem (dropConstraintNames d))
    (h : Accounts ds names) : Accounts (d :: ds) names
  | lost {d : List Char} {ds : List (List Char)} {names : List String} (hd : Lost d) (h : Accounts ds names) :
    Accounts (d :: ds) names

theorem accounts_definitions (ds : List (List Char)) :
    Accounts ds (((ds.map Definition.read).filterMap Definition.column?).map ColumnDefinition.name) := by
  induction ds with
  | nil => exact .nil
  | cons d ds ih =>
    rw [List.map_cons, List.filterMap_cons]
    rcases item_or_declares_or_lost d with hitem | ⟨name, hdeclares⟩ | hlost
    · have hnone : (Definition.read d).column? = none := column?_classify_of_item hitem
      rw [hnone]
      exact .item hitem ih
    · obtain ⟨spelling, settings, hread⟩ := read_of_declares hdeclares
      rw [hread]
      exact .column hdeclares ih
    · rw [column?_read_of_lost hlost]
      exact .lost hlost ih

/-! ## Scripts -/

/-- The account of a script. The tables are those whose bodies are found, with a column for each definition that
declares one, and the complaints are those about the other statements. -/
structure Accounted (script : String) (r : Reading) : Prop where
  tables : List.Forall₂ (fun q t => t.name = String.ofList q.1 ∧
    Accounts (definitions q.2) (t.columns.map Column.name)) (bodies script.toList) r.diagram.tables
  diagnostics : r.diagnostics.map Diagnostic.line =
    ((statements script.toList).filter fun x => (tableBody? x.text).isNone).map Statement.line

/-- Nothing is lost silently: each definition in a body declares a column or is an item, or there is a complaint
about the statement. -/
def Kept (script : String) (r : Reading) : Prop :=
  ∀ x ∈ statements script.toList, ∀ q, tableBody? x.text = some q → ∀ d ∈ definitions q.2,
    (∃ name, Declares d name) ∨ IsItem (dropConstraintNames d) ∨ ∃ e ∈ r.diagnostics, e.line = x.line

theorem accounted_read (dialect : Dialect) (script : String) (s : Outline.Sheet) : Accounted script
    ⟨(outline (tablesOf script.toList)).draw s, (faultsOf script.toList).map (complaint dialect)⟩ where
  tables := by
    have hnames := names_draw (tablesOf script.toList) s
    rw [tablesOf_eq_bodies, List.map_map, ← List.forall₂_eq_eq_eq, List.forall₂_map_right_iff,
      List.forall₂_map_left_iff] at hnames
    rw [tablesOf_eq_bodies]
    refine hnames.flip.imp fun q t ht => ?_
    obtain ⟨hname, hcolumns⟩ := Prod.mk.inj ht
    refine ⟨hname, ?_⟩
    rw [hcolumns]
    simpa [TableDefinition.ownColumns, tableOf, Function.comp_def, ColumnDefinition.outline] using
      accounts_definitions (definitions q.2)
  diagnostics := by
    rw [← lines_faultsOf, List.map_map]
    rfl

theorem kept_of_not_lost {script : String} (r : Reading)
    (h : ∀ q ∈ bodies script.toList, ∀ d ∈ definitions q.2, ¬ Lost d) : Kept script r := by
  intro x hx q hq d hd
  rcases item_or_declares_or_lost d with hitem | hdeclares | hlost
  · exact .inr (.inl hitem)
  · exact .inl hdeclares
  · exact absurd hlost (h q (List.mem_filterMap.mpr ⟨x, hx, hq⟩) d hd)

/-- The definitions in the bodies of a script are columns, items or lost, and none is complained about. A name with
a type is a column of that name exactly if it names no table option, and lost otherwise; and where the word that
announces the name of a constraint stands for a name, the type is taken for the name of a constraint. -/
theorem body_accounted {s : Outline.Sheet} (hs : s.grid.columns ≠ 0) (dialect : Dialect) :
    (∀ script, ∃ r, read s dialect script = .ok r ∧ Accounted script r ∧
      ((∀ q ∈ bodies script.toList, ∀ d ∈ definitions q.2, ¬ Lost d) → Kept script r)) ∧
    (∀ name d, NameAndType name d → (Declares d name ↔ String.ofList (upper name) ∉ tableOptions) ∧
      (Lost d ↔ String.ofList (upper name) ∈ tableOptions)) ∧
    ∀ name type b b' rest, (∀ c ∈ name, isWord c = true) → keyword "constraint" name = some [] →
      isBlank b = true → type ≠ [] → (∀ c ∈ type, isBlank c = false) → isBlank b' = true →
        Definition.read (name ++ b :: (type ++ b' :: rest)) = Definition.read (trimStart rest) :=
  ⟨fun script => ⟨_, read_eq dialect script hs, accounted_read dialect script s, kept_of_not_lost _⟩,
    fun _ _ h => ⟨h.declares_iff, h.lost_iff⟩,
    fun _ _ _ _ _ hname hc hb hne htype hb' => read_constraint hname hc hb hne htype hb'⟩

/-- A script with a column called like the word for a key, one called like the word for a check, and a check. -/
def keysScript : String := "CREATE TABLE keys (key INT, 'check' TEXT, CHECK (key > 0))"

/-- Where the name and the type are in the definition of a column called like the word for a key. -/
theorem nameAndType_key : NameAndType "key".toList "key INT".toList :=
  have htype : TypeAfter "key".toList (trimStart "INT".toList) :=
    ⟨⟨_, _, rfl, .inl rfl⟩, fun _ _ _ => ⟨by decide, by decide⟩⟩
  .word (b := ' ') (by decide) (by decide) (by decide) rfl htype

theorem not_lost_keys : ∀ q ∈ bodies keysScript.toList, ∀ d ∈ definitions q.2, ¬ Lost d := by
  have hbodies : bodies keysScript.toList =
      [("keys".toList, "key INT, 'check' TEXT, CHECK (key > 0)".toList)] := by decide +kernel
  have hdefinitions : definitions "key INT, 'check' TEXT, CHECK (key > 0)".toList =
      ["key INT".toList, "'check' TEXT".toList, "CHECK (key > 0)".toList] := by decide +kernel
  have htype : StartsType (trimStart "TEXT".toList) := ⟨_, _, rfl, .inl rfl⟩
  have hquoted : NameAndType "check".toList "'check' TEXT".toList :=
    .quoted (q := '\'') (b := ' ') (by decide) rfl (by decide) rfl htype
  have hcheck : IsItem (dropConstraintNames "CHECK (key > 0)".toList) := by
    rw [dropConstraintNames_eq_self (by decide +kernel)]
    decide +kernel
  rw [hbodies, List.forall_mem_singleton, hdefinitions, List.forall_mem_cons, List.forall_mem_cons,
    List.forall_mem_singleton, nameAndType_key.lost_iff, hquoted.lost_iff]
  exact ⟨by decide, by decide, fun h => h.unlisted hcheck⟩

/-- The definition of a column that is called like a table option. -/
theorem nameAndType_engine : NameAndType "engine".toList "engine VARCHAR(20)".toList :=
  have htype : TypeAfter "engine".toList (trimStart "VARCHAR(20)".toList) :=
    ⟨⟨_, _, rfl, .inl rfl⟩, fun _ _ _ => ⟨by decide, by decide⟩⟩
  .word (b := ' ') (by decide) (by decide) (by decide) rfl htype

theorem body_accounted_keys : ({} : Outline.Sheet).grid.columns ≠ 0 ∧
    (∀ q ∈ bodies keysScript.toList, ∀ d ∈ definitions q.2, ¬ Lost d) ∧
    (∃ r, read {} .postgresql keysScript = .ok r ∧ Accounted keysScript r ∧ Kept keysScript r) ∧
    Declares "key INT".toList "key".toList ∧ Lost "engine VARCHAR(20)".toList ∧
    Definition.read "constraint INT NOT NULL".toList = Definition.read "NOT NULL".toList := by
  obtain ⟨hscripts, hnames, hconstraint⟩ := body_accounted (s := {}) (by decide) .postgresql
  obtain ⟨r, hr, haccounted, hkept⟩ := hscripts keysScript
  exact ⟨by decide, not_lost_keys, ⟨r, hr, haccounted, hkept not_lost_keys⟩,
    (hnames _ _ nameAndType_key).1.mpr (by decide), (hnames _ _ nameAndType_engine).2.mpr (by decide),
    hconstraint "constraint".toList "INT".toList ' ' ' ' "NOT NULL".toList (by decide) (by decide) rfl (by decide)
      (by decide) rfl⟩

/-- A script with a column that is called like a table option. -/
def carsScript : String := "CREATE TABLE cars (id INT, engine VARCHAR(20))"

/-- Its engine is lost, and nothing tells so. -/
theorem not_kept_cars : ∃ r, read {} .postgresql carsScript = .ok r ∧ r.diagnostics = [] ∧ ¬ Kept carsScript r := by
  have hclean : (faultsOf carsScript.toList).map (complaint .postgresql) = [] := by decide +kernel
  refine ⟨_, read_eq .postgresql carsScript (by decide), hclean, fun hkept => ?_⟩
  have hstatements : statements carsScript.toList = [⟨1, carsScript.toList⟩] := by decide +kernel
  have hbody : tableBody? carsScript.toList = some ("cars".toList, "id INT, engine VARCHAR(20)".toList) := by
    decide +kernel
  have hengine : "engine VARCHAR(20)".toList ∈ definitions "id INT, engine VARCHAR(20)".toList := by decide +kernel
  have hlost : Lost "engine VARCHAR(20)".toList := nameAndType_engine.lost_iff.mpr (by decide)
  rcases hkept ⟨1, carsScript.toList⟩ (by simp [hstatements]) _ hbody _ hengine with ⟨name, hdeclares⟩ | hitem | hloud
  · exact hdeclares.kept (hlost.formless name hdeclares.form)
  · exact hlost.unlisted hitem
  · simp [hclean] at hloud

end Erd.Sql
