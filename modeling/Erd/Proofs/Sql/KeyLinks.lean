import Erd.Proofs.Sql.Accounting
import Erd.Proofs.Sql.Linking
import Mathlib.Data.List.Forall2

/-!
# Every foreign key is linked or reported

The foreign keys of a script, those of its tables and those among the settings of its columns, are settled one
after another. What settles them can be looked up in the diagram that is read: a foreign key has both its ends
there or it has not. In the first case there is one relationship between them, in the second one report and
nothing else.

**Results.**
* `keyEnds?_of_link`, `keyEnds?_of_report`: a foreign key is linked exactly if its ends are in the diagram.
* `keySound_columns`: a column of the primary key is unique and never null, however it came to be one.
* `keys_settled`: the relationships and the reports, in the order of the foreign keys.
-/
namespace Erd

/-! ## Ends in a diagram -/

/-- The last table with a name, case aside. -/
def Diagram.lastNamed? (d : Diagram) (name : String) : Option Table :=
  d.tables.reverse.find? fun t => nameKey t.name == nameKey name

/-- What a foreign key leads from and to. -/
structure KeyEnds where
  referenced : Table
  parent : Column
  owner : Table
  child : Column

/-- The ends of a foreign key of the table with an index: the first column it refers to in the last table it
refers to, and the first column it stands for in its own table. -/
def Diagram.keyEnds? (d : Diagram) (i : Nat) (r : Sql.Reference) : Option KeyEnds :=
  (d.lastNamed? r.table).bind fun referenced => (referenced.columnNamed? r.referenced).bind fun parent =>
    (d.tables[i]?).bind fun owner => (owner.columnNamed? r.column).map fun child =>
      ⟨referenced, parent, owner, child⟩

/-- A relationship is that of a foreign key: it leads from the column referred to to the column that refers, which
is marked, and is one to one exactly if that column is unique. -/
structure KeyEnds.Drawn (e : KeyEnds) (r : Relationship) : Prop where
  cardinality : r.cardinality = if e.child.constraints.isUnique then .oneToOne else .oneToMany
  source : r.source = ⟨e.referenced.id, e.parent.id⟩
  target : r.target = ⟨e.owner.id, e.child.id⟩
  marked : e.child.constraints.isForeignKey

/-- An event is worded as the report that a foreign key is dropped. -/
def Event.reportsKey (e : Event) : Bool := "Dropping FK ".toList.isPrefixOf e.message.toList

/-- An event is the report about a foreign key of the table with an index. -/
structure Event.Reports (d : Diagram) (i : Nat) (r : Sql.Reference) (e : Event) : Prop where
  level : e.level = .debug
  wording : ∃ owner, d.tables[i]? = some owner ∧
    ("Dropping FK " ++ owner.name ++ "." ++ r.column ++ " → ").toList <+: e.message.toList

/-! ## Lists -/

section Lists

variable {α β γ : Type}

/-- Images under two functions, of the same elements of the same lists, are related if they are for each. -/
theorem forall₂_flatMap_map {δ : Type} {R : γ → δ → Prop} {l : List α} {f : α → List β} {g : α → β → γ}
    {h : α → β → δ} (hR : ∀ a ∈ l, ∀ b ∈ f a, R (g a b) (h a b)) :
    List.Forall₂ R (l.flatMap fun a => (f a).map (g a)) (l.flatMap fun a => (f a).map (h a)) := by
  induction l with
  | nil => exact .nil
  | cons a l ih =>
    obtain ⟨ha, hl⟩ := List.forall_mem_cons.mp hR
    have hhead : List.Forall₂ R ((f a).map (g a)) ((f a).map (h a)) := by
      rw [List.forall₂_map_left_iff, List.forall₂_map_right_iff, List.forall₂_same]
      exact ha
    exact List.rel_append hhead (ih hl)

end Lists

namespace Sql

/-- The foreign keys of tables, each with the index of its table, in the order of the tables and of the
definitions in each. -/
def keysOf (ts : List TableDefinition) : List (Nat × Reference) :=
  ts.zipIdx.flatMap fun q => q.1.references.map fun r => (q.2, r)

/-! ## Names in the diagram -/

section Names

variable {ts : List TableDefinition} {s : Outline.Sheet}

/-- The table of the diagram that is drawn of the table with an index. -/
def drawnTable (ts : List TableDefinition) (s : Outline.Sheet) (i : Nat) (o : Outline.Table) : Table :=
  s.table i (markLinked ((links ts).filterMap linked?) i o)

/-- The column of the diagram that is drawn of a column. -/
def drawnColumn (ts : List TableDefinition) (s : Outline.Sheet) (i j : Nat) (c : Outline.Column) : Column :=
  s.column i j (if ((links ts).filterMap linked?).any fun l => l.target == ⟨i, j⟩ then markForeignKey c else c)

theorem tables_draw (ts : List TableDefinition) (s : Outline.Sheet) :
    ((outline ts).draw s).tables = (ts.map TableDefinition.outline).mapIdx (drawnTable ts s) := by
  rw [Outline.draw, outline, List.mapIdx_mapIdx]
  rfl

theorem getElem?_tables_draw {i : Nat} {t : TableDefinition} (ht : ts[i]? = some t) :
    ((outline ts).draw s).tables[i]? = some (drawnTable ts s i t.outline) := by
  rw [tables_draw, List.getElem?_mapIdx, List.getElem?_map, ht]
  rfl

theorem columns_drawnTable (i : Nat) (o : Outline.Table) :
    (drawnTable ts s i o).columns = o.columns.mapIdx (drawnColumn ts s i) := by
  rw [drawnTable, Outline.Sheet.table, markLinked, List.mapIdx_mapIdx]
  rfl

theorem name_drawnColumn (i j : Nat) (c : Outline.Column) : (drawnColumn ts s i j c).name = c.name := by
  rw [drawnColumn, Outline.Sheet.column]
  split <;> rfl

theorem isUnique_drawnColumn (i j : Nat) (c : Outline.Column) :
    (drawnColumn ts s i j c).constraints.isUnique = c.constraints.isUnique := by
  rw [drawnColumn, Outline.Sheet.column]
  split <;> rfl

theorem lastNamed?_draw (name : String) : ((outline ts).draw s).lastNamed? name =
    (Outline.tableNamed? (ts.map TableDefinition.outline) name).map fun p => drawnTable ts s p.1 p.2 := by
  rw [Diagram.lastNamed?, tables_draw, List.mapIdx_eq_zipIdx_map, ← List.map_reverse, List.find?_map,
    Outline.tableNamed?, Option.map_map]
  rfl

theorem columnNamed?_drawnTable (i : Nat) (o : Outline.Table) (name : String) :
    (drawnTable ts s i o).columnNamed? name =
      (o.columnNamed? name).bind fun j => o.columns[j]?.map (drawnColumn ts s i j) := by
  rw [Table.columnNamed?, columns_drawnTable]
  exact find?_mapIdx (fun j c => by rw [name_drawnColumn]) _

end Names

/-! ## One foreign key -/

section Link

variable {ts : List TableDefinition} {s : Outline.Sheet} {i : Nat} {t : TableDefinition} {r : Reference}

/-- A foreign key that is linked has its ends in the diagram, and the relationship drawn of the link is that of the
foreign key. -/
theorem keyEnds?_of_link (ht : ts[i]? = some t) (hr : r ∈ t.references) {l : Outline.Link}
    (h : link (ts.map TableDefinition.outline) i t.outline r = .ok l) :
    ∃ e, ((outline ts).draw s).keyEnds? i r = some e ∧ ∀ k, e.Drawn (s.relationship k l) := by
  have hmem : l ∈ (links ts).filterMap linked? := mem_links.mpr ⟨i, t, ht, r, hr, by rw [h]; rfl⟩
  unfold link at h
  split at h
  · cases h
  next k referenced hk =>
  split at h
  · next parent child hp hc =>
    cases h
    obtain ⟨p, hpget, -⟩ := Outline.columnNamed?_eq_some hp
    obtain ⟨c, hcget, -⟩ := Outline.columnNamed?_eq_some hc
    have howner : ((outline ts).draw s).tables[i]? = some (drawnTable ts s i t.outline) := getElem?_tables_draw ht
    refine ⟨⟨drawnTable ts s k referenced, drawnColumn ts s k parent p, drawnTable ts s i t.outline,
      drawnColumn ts s i child c⟩, ?_, fun k' => ⟨?_, rfl, rfl, ?_⟩⟩
    · rw [Diagram.keyEnds?, lastNamed?_draw, hk, Option.map_some, Option.bind_some, columnNamed?_drawnTable, hp,
        Option.bind_some, hpget, Option.map_some, Option.bind_some, howner, Option.bind_some,
        columnNamed?_drawnTable, hc, Option.bind_some, hcget]
      rfl
    · simp only [Outline.Sheet.relationship, hcget, Option.any_some, isUnique_drawnColumn]
    · have hany : (((links ts).filterMap linked?).any fun l => l.target == ⟨i, child⟩) = true :=
        List.any_eq_true.mpr ⟨_, hmem, by simp⟩
      show (drawnColumn ts s i child c).constraints.isForeignKey = true
      rw [drawnColumn, if_pos hany]
      rfl
  · cases h

theorem reports_of_message {d : Diagram} {owner : Table} (h : d.tables[i]? = some owner) {e : Event}
    (he : e.level = .debug) {rest : String}
    (hmessage : e.message = "Dropping FK " ++ owner.name ++ "." ++ r.column ++ " → " ++ rest) :
    e.Reports d i r where
  level := he
  wording := by
    refine ⟨owner, h, ?_⟩
    have hlist := congrArg String.toList hmessage
    rw [String.toList_append] at hlist
    rw [hlist]
    exact List.prefix_append _ _

theorem reports_keyWithoutTable {d : Diagram} {owner : Table} (h : d.tables[i]? = some owner) (r : Reference) :
    (Event.keyWithoutTable owner.name r.column r.table).Reports d i r := by
  have hword : " → unknown table '" = " → " ++ "unknown table '" := by decide
  have hmessage : "Dropping FK " ++ owner.name ++ "." ++ r.column ++ " → unknown table '" ++ r.table ++ "'" =
      "Dropping FK " ++ owner.name ++ "." ++ r.column ++ " → " ++ ("unknown table '" ++ r.table ++ "'") := by
    simp only [hword, String.append_assoc]
  exact reports_of_message h rfl hmessage

theorem reports_keyWithoutColumn {d : Diagram} {owner : Table} (h : d.tables[i]? = some owner) (r : Reference) :
    (Event.keyWithoutColumn owner.name r.column r.table r.referenced).Reports d i r := by
  have hmessage : "Dropping FK " ++ owner.name ++ "." ++ r.column ++ " → " ++ r.table ++ "." ++ r.referenced ++
      ": unknown column" = "Dropping FK " ++ owner.name ++ "." ++ r.column ++ " → " ++
        (r.table ++ "." ++ r.referenced ++ ": unknown column") := by
    simp only [String.append_assoc]
  exact reports_of_message h rfl hmessage

/-- A foreign key that is not linked lacks one of its ends, and is reported. -/
theorem keyEnds?_of_report (ht : ts[i]? = some t) {e : Event}
    (h : link (ts.map TableDefinition.outline) i t.outline r = .error e) :
    ((outline ts).draw s).keyEnds? i r = none ∧ e.Reports ((outline ts).draw s) i r := by
  have howner : ((outline ts).draw s).tables[i]? = some (drawnTable ts s i t.outline) := getElem?_tables_draw ht
  unfold link at h
  rw [Diagram.keyEnds?, lastNamed?_draw]
  split at h
  · next hk =>
    cases h
    exact ⟨by simp [hk], reports_keyWithoutTable howner r⟩
  next k referenced hk =>
  rw [hk, Option.map_some, Option.bind_some, columnNamed?_drawnTable, howner]
  split at h
  · cases h
  · next hnone =>
    cases h
    refine ⟨?_, reports_keyWithoutColumn howner r⟩
    cases hp : referenced.columnNamed? r.referenced with
    | none => rfl
    | some parent =>
      cases hc : t.outline.columnNamed? r.column with
      | none => simp [columnNamed?_drawnTable, hc]
      | some child => exact (hnone parent child hp hc).elim

end Link

/-! ## All foreign keys -/

section Keys

variable (ts : List TableDefinition) (s : Outline.Sheet)

/-- The links and reports are those of the foreign keys, one of each for each. -/
theorem forall₂_links : List.Forall₂ (fun q e => ∃ t, ts[q.1]? = some t ∧ q.2 ∈ t.references ∧
    link (ts.map TableDefinition.outline) q.1 t.outline q.2 = e) (keysOf ts) (links ts) := by
  rw [links_eq_flatMap]
  refine forall₂_flatMap_map fun q hq r hr => ⟨q.1, ?_, hr, rfl⟩
  exact List.mem_zipIdx_iff_getElem?.mp hq

theorem forall₂_relationships :
    List.Forall₂ KeyEnds.Drawn ((keysOf ts).filterMap fun q => ((outline ts).draw s).keyEnds? q.1 q.2)
      ((outline ts).draw s).relationships := by
  refine forall₂_mapIdx (R := fun e l => ∀ k, e.Drawn (s.relationship k l)) (fun k e l h => h k) ?_
  refine List.rel_filterMap ?_ (forall₂_links ts)
  rintro q e ⟨t, ht, hr, rfl⟩
  beta_reduce
  cases hlink : link (ts.map TableDefinition.outline) q.1 t.outline q.2 with
  | error e =>
    rw [(keyEnds?_of_report ht hlink).1]
    exact .none
  | ok l =>
    obtain ⟨e, he, hdrawn⟩ := keyEnds?_of_link (s := s) ht hr hlink
    rw [he]
    exact .some hdrawn

theorem forall₂_reports :
    List.Forall₂ (fun q e => Event.Reports ((outline ts).draw s) q.1 q.2 e)
      ((keysOf ts).filter fun q => (((outline ts).draw s).keyEnds? q.1 q.2).isNone)
      ((links ts).filterMap dropped?) := by
  rw [← List.filterMap_eq_filter]
  refine List.rel_filterMap ?_ (forall₂_links ts)
  rintro q e ⟨t, ht, hr, rfl⟩
  cases hlink : link (ts.map TableDefinition.outline) q.1 t.outline q.2 with
  | error e =>
    obtain ⟨hnone, hreports⟩ := keyEnds?_of_report (s := s) ht hlink
    simp only [Option.guard, hnone, Option.isNone_none, if_true]
    exact .some hreports
  | ok l =>
    obtain ⟨e, he, -⟩ := keyEnds?_of_link (s := s) ht hr hlink
    simp only [Option.guard, he, Option.isNone_some, Bool.false_eq_true, if_false]
    exact .none

end Keys

/-! ## Reports among other events -/

theorem reportsKey_of_head {e : Event} {c : Char} (hc : c ≠ 'D') (h : e.message.toList.head? = some c) :
    e.reportsKey = false := by
  unfold Event.reportsKey
  cases hm : e.message.toList with
  | nil => rfl
  | cons b rest =>
    rw [hm, List.head?_cons, Option.some.injEq] at h
    subst h
    have hD : "Dropping FK ".toList = 'D' :: "ropping FK ".toList := by decide
    rw [hD, List.isPrefixOf, beq_false_of_ne hc.symm, Bool.false_and]

theorem head?_append {a b : String} {c : Char} (h : a.toList.head? = some c) : (a ++ b).toList.head? = some c := by
  rw [String.toList_append, List.head?_append, h]
  rfl

theorem reportsKey_events (t : TableDefinition) (line : Nat) : ∀ e ∈ t.events line, e.reportsKey = false := by
  intro e he
  rcases List.mem_append.mp he with he | he
  · obtain ⟨c, -, hc⟩ := List.mem_filterMap.mp he
    split at hc
    · cases hc
      refine reportsKey_of_head (c := 'C') (by decide) ?_
      exact head?_append <| head?_append <| head?_append <| head?_append (by decide)
    · cases hc
  · obtain rfl := List.mem_singleton.mp he
    refine reportsKey_of_head (c := 'P') (by decide) ?_
    exact head?_append <| head?_append <| head?_append <| head?_append <| head?_append (by decide)

theorem reportsKey_of_reports {d : Diagram} {i : Nat} {r : Reference} {e : Event} (h : e.Reports d i r) :
    e.reportsKey = true := by
  obtain ⟨owner, -, hprefix⟩ := h.wording
  refine List.isPrefixOf_iff_prefix.mpr (List.IsPrefix.trans ?_ hprefix)
  rw [String.toList_append, String.toList_append, String.toList_append, String.toList_append, List.append_assoc,
    List.append_assoc, List.append_assoc]
  exact List.prefix_append _ _

/-- Of all that is reported about a script, what is worded as the report of a foreign key is such a report. -/
theorem filter_events_draft {s : Outline.Sheet} (hs : s.grid.columns ≠ 0) (dialect : Dialect) (script : String) :
    ((draft dialect script).events s).filter Event.reportsKey =
      (links (tablesOf script.toList)).filterMap dropped? := by
  have hplace (o : Outline) : o.place s = .ok (o.draw s) := by rw [Outline.place, if_neg (by simp [hs])]
  unfold draft
  split
  · next hblank =>
    rw [tablesOf, outcomes_blank hblank, Draft.events, hplace]
    rfl
  · rw [Draft.events, hplace]
    have hbefore : ((outcomes script.toList).flatMap Outcome.events).filter Event.reportsKey = [] := by
      rw [List.filter_eq_nil_iff]
      intro e he
      obtain ⟨⟨line, result⟩, -, he⟩ := List.mem_flatMap.mp he
      cases result with
      | error f => cases he
      | ok t => simp [reportsKey_events t line e he]
    have hdropped : ∀ e ∈ (links (tablesOf script.toList)).filterMap dropped?, e.reportsKey = true :=
      forall_of_forall₂ (P := fun e => e.reportsKey = true) (fun _ _ => reportsKey_of_reports) (forall₂_reports (tablesOf script.toList) s)
    have hsummary (tables relationships errors : Nat) :
        (Event.sqlRead dialect tables relationships errors).reportsKey = false := by
      refine reportsKey_of_head (c := 'P') (by decide) ?_
      exact head?_append <| head?_append <| head?_append (by decide)
    show ((outcomes script.toList).flatMap Outcome.events ++
      ((links (tablesOf script.toList)).filterMap dropped? ++ [Event.sqlRead ..])).filter Event.reportsKey = _
    rw [List.filter_append, hbefore, List.nil_append, List.filter_append, List.filter_eq_self.mpr hdropped,
      List.filter_singleton, hsummary]
    simp

/-! ## Primary keys -/

/-- What belongs to the primary key is unique and never null. -/
def KeySound (k : Constraints) : Prop := k.isPrimaryKey → k.isUnique ∧ k.isNullable = false

theorem forall_changeNamed {P : Outline.Column → Prop} {f : Outline.Column → Outline.Column}
    (hf : ∀ c, P c → P (f c)) (name : String) {cs : List Outline.Column} (h : ∀ c ∈ cs, P c) :
    ∀ c ∈ Outline.changeNamed name f cs, P c := by
  induction cs with
  | nil => exact h
  | cons a cs ih =>
    obtain ⟨ha, hcs⟩ := List.forall_mem_cons.mp h
    unfold Outline.changeNamed
    split
    · exact List.forall_mem_cons.mpr ⟨hf a ha, hcs⟩
    · exact List.forall_mem_cons.mpr ⟨ha, ih hcs⟩

theorem forall_foldl_changeNamed {P : Outline.Column → Prop} {f : Outline.Column → Outline.Column}
    (hf : ∀ c, P c → P (f c)) (names : List String) {cs : List Outline.Column} (h : ∀ c ∈ cs, P c) :
    ∀ c ∈ names.foldl (fun cs name => Outline.changeNamed name f cs) cs, P c := by
  induction names generalizing cs with
  | nil => exact h
  | cons name names ih => exact ih (forall_changeNamed hf name h)

theorem keySound_markPrimaryKey (c : Outline.Column) : KeySound (markPrimaryKey c).constraints :=
  fun _ => ⟨rfl, rfl⟩

theorem keySound_markUnique {c : Outline.Column} (h : KeySound c.constraints) :
    KeySound (markUnique c).constraints := fun hkey => ⟨rfl, (h hkey).2⟩

theorem keySound_markForeignKey {c : Outline.Column} (h : KeySound c.constraints) :
    KeySound (markForeignKey c).constraints := h

theorem keySound_columnDefinition (name spelling settings : List Char) :
    KeySound (columnDefinition name spelling settings).outline.constraints := by
  intro hkey
  have hkey : Text.hasPhrase ["primary", "key"] settings = true := hkey
  simp [ColumnDefinition.outline, columnDefinition, hkey]

/-- A column of the primary key is unique and never null, whether its own settings or a key of the table make it
one. -/
theorem keySound_columns (q : List Char × List Char) : ∀ c ∈ (tableOf q).columns, KeySound c.constraints := by
  have hown : ∀ c ∈ (tableOf q).ownColumns, KeySound c.constraints := by
    intro c hc
    obtain ⟨a, ha, rfl⟩ := List.mem_map.mp hc
    obtain ⟨d, hd⟩ := exists_read_of_mem_columns ha
    obtain ⟨name, spelling, settings, -, rfl⟩ := declares_of_read hd
    exact keySound_columnDefinition name spelling settings
  have hkeyed : ∀ c ∈ ((tableOf q).definitions.flatMap Definition.primaryKeyColumns).foldl
      (fun cs name => Outline.changeNamed name markPrimaryKey cs) (tableOf q).ownColumns, KeySound c.constraints :=
    forall_foldl_changeNamed (P := fun c => KeySound c.constraints) (fun c _ => keySound_markPrimaryKey c) _ hown
  exact forall_foldl_changeNamed (P := fun c => KeySound c.constraints) (fun _ => keySound_markUnique) _ hkeyed

/-- Linking leaves it so. -/
theorem keySound_draw (script : List Char) (s : Outline.Sheet) :
    ∀ t ∈ ((outline (tablesOf script)).draw s).tables, ∀ c ∈ t.columns, KeySound c.constraints := by
  intro t ht c hc
  rw [tables_draw] at ht
  obtain ⟨i, hi, rfl⟩ := List.mem_mapIdx.mp ht
  rw [columns_drawnTable] at hc
  obtain ⟨j, hj, rfl⟩ := List.mem_mapIdx.mp hc
  have hcolumn : KeySound ((tablesOf script).map TableDefinition.outline)[i].columns[j].constraints := by
    have hmem := List.getElem_mem hi
    obtain ⟨u, hu, hui⟩ := List.mem_map.mp hmem
    rw [tablesOf_eq_bodies] at hu
    obtain ⟨q, -, rfl⟩ := List.mem_map.mp hu
    refine keySound_columns q _ ?_
    show _ ∈ (tableOf q).outline.columns
    rw [hui]
    exact List.getElem_mem hj
  rw [drawnColumn]
  split
  · exact keySound_markForeignKey hcolumn
  · exact hcolumn

/-! ## Scripts -/

/-- How the foreign keys of a script are settled, in the order of its tables and of the definitions in each. A
foreign key with both its ends in the diagram has the relationship between them; one without has a report, and
nothing is complained about it. -/
structure KeysSettled (dialect : Dialect) (script : String) (r : Reading) (events : List Event) : Prop where
  names : r.diagram.tables.map (fun t => (t.name, t.columns.map Column.name)) =
    (tablesOf script.toList).map fun t => (t.name, t.ownColumns.map (·.name))
  relationships : List.Forall₂ KeyEnds.Drawn
    ((keysOf (tablesOf script.toList)).filterMap fun q => r.diagram.keyEnds? q.1 q.2) r.diagram.relationships
  reports : List.Forall₂ (fun q e => e.Reports r.diagram q.1 q.2)
    ((keysOf (tablesOf script.toList)).filter fun q => (r.diagram.keyEnds? q.1 q.2).isNone)
    (events.filter Event.reportsKey)
  diagnostics : r.diagnostics = (faultsOf script.toList).map (complaint dialect)
  keys : ∀ t ∈ r.diagram.tables, ∀ c ∈ t.columns, KeySound c.constraints

/-- Every script is read, its foreign keys are linked or reported, and its primary keys are unique and never
null. -/
theorem keys_settled {s : Outline.Sheet} (hs : s.grid.columns ≠ 0) (dialect : Dialect) (script : String) :
    ∃ r, read s dialect script = .ok r ∧ KeysSettled dialect script r ((draft dialect script).events s) := by
  refine ⟨_, read_eq dialect script hs, names_draw _ s, forall₂_relationships _ s, ?_, rfl,
    keySound_draw script.toList s⟩
  rw [filter_events_draft hs]
  exact forall₂_reports (tablesOf script.toList) s

/-- A script with a foreign key to a table that is defined later, one from a unique column to itself, and one to a
table that is not there. -/
def staffScript : String :=
  "CREATE TABLE men (job INT REFERENCES Jobs(id));CREATE TABLE jobs (id INT UNIQUE REFERENCES jobs(ID)," ++
    "hall INT REFERENCES halls(id))"

theorem keys_settled_staff : ({} : Outline.Sheet).grid.columns ≠ 0 ∧ ∃ r, read {} .postgresql staffScript = .ok r ∧
    KeysSettled .postgresql staffScript r ((draft .postgresql staffScript).events {}) ∧
    (keysOf (tablesOf staffScript.toList)).map (fun q => (r.diagram.keyEnds? q.1 q.2).map fun e => e.child.name) =
      [some "job", some "id", none] := by
  obtain ⟨r, hr, hsettled⟩ := keys_settled (s := {}) (by decide) .postgresql staffScript
  have hdrawn : r.diagram = (outline (tablesOf staffScript.toList)).draw {} := by
    have hread := hr.symm.trans (read_eq .postgresql staffScript (by decide))
    rw [Except.ok.inj hread]
  refine ⟨by decide, r, hr, hsettled, ?_⟩
  rw [hdrawn]
  decide +kernel

end Sql

end Erd
