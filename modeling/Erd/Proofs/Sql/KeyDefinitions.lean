import Erd.Proofs.Sql.Arrangement
import Erd.Proofs.Sql.Clause

/-!
# Tables with a key more

Among the settings of a column a key sets flags of its column as it is read, and as an item when the whole body has been
read. The flags that keys set do not undo each other, so it does not matter when they are set. A table with a key more,
spelled in either way, is told here by the table without it: a column has the flags of the key, unless it is a foreign
key that is an item, and there is one more foreign key if it is one.

**Results.**
* `columns_of_own`: flags that a column has by its own settings could be set in the end.
* `bears_item`: an item anywhere makes a table with a key more.
* `bears_settings`: so does a clause among the settings of a column, where no other column has the name.
-/
namespace Erd.Sql

open Text

/-! ## Changes by name -/

section ChangeNamed

variable {x : String} {f : Outline.Column → Outline.Column} {cs : List Outline.Column}

/-- Columns of other names are passed over. -/
theorem changeNamed_append (h : ∀ c ∈ cs, nameKey c.name ≠ nameKey x) (ds : List Outline.Column) :
    Outline.changeNamed x f (cs ++ ds) = cs ++ Outline.changeNamed x f ds := by
  induction cs with
  | nil => rfl
  | cons c cs ih =>
    obtain ⟨hc, hcs⟩ := List.forall_mem_cons.mp h
    rw [List.cons_append, Outline.changeNamed, if_neg hc, ih hcs, List.cons_append]

theorem changeNamed_eq_self (h : ∀ c ∈ cs, nameKey c.name ≠ nameKey x) : Outline.changeNamed x f cs = cs := by
  simpa [Outline.changeNamed] using changeNamed_append (f := f) h []

end ChangeNamed

/-- A key sets flags, and it does not matter when. -/
theorem Key.mark_facts (k : Key) : (∀ c, (k.mark c).name = c.name) ∧
    (∀ c, k.mark (markPrimaryKey c) = markPrimaryKey (k.mark c)) ∧
    ∀ c, k.mark (markUnique c) = markUnique (k.mark c) := by
  cases k <;> exact ⟨fun _ => rfl, fun _ => rfl, fun _ => rfl⟩

namespace TableDefinition

/-- The names in primary keys. -/
def primaryNames (t : TableDefinition) : List String := t.definitions.flatMap Definition.primaryKeyColumns

/-- The names in unique constraints of one column. -/
def uniqueNames (t : TableDefinition) : List String := t.definitions.filterMap Definition.uniqueColumn?

theorem columns_eq (t : TableDefinition) : t.columns =
    t.uniqueNames.foldl (fun cs name => Outline.changeNamed name markUnique cs)
      (t.primaryNames.foldl (fun cs name => Outline.changeNamed name markPrimaryKey cs) t.ownColumns) := rfl

/-- Flags that a column has by its own settings could be set in the end. -/
theorem columns_of_own {t u : TableDefinition} {x : String} {k : Key} (hp : u.primaryNames = t.primaryNames)
    (hu : u.uniqueNames = t.uniqueNames) (ho : u.ownColumns = Outline.changeNamed x k.mark t.ownColumns) :
    u.columns = Outline.changeNamed x k.mark t.columns := by
  obtain ⟨hname, hprimary, hunique⟩ := k.mark_facts
  rw [columns_eq, columns_eq, hp, hu, ho,
    foldl_changeNamed_comm (g := markPrimaryKey) hname (fun _ => rfl) hprimary,
    foldl_changeNamed_comm (g := markUnique) hname (fun _ => rfl) hunique]

end TableDefinition

/-! ## Tables with a key more -/

/-- The foreign key of the column `x` that a key is. -/
def Key.reference? (x : String) : Key → Option Reference
  | .foreign t c => some ⟨x, t, c⟩
  | _ => none

/-- The table `t` is `u` with a key more of its column `x`. Unless it is a foreign key, the flags of the key are
set. -/
structure Bears (x : String) (k : Key) (u t : TableDefinition) : Prop where
  name : t.name = u.name
  columns : t.columns = Outline.changeNamed x k.mark u.columns ∨ (k.reference? x).isSome ∧ t.columns = u.columns
  references : ∃ as bs, u.references = as ++ bs ∧ t.references = as ++ ((k.reference? x).toList ++ bs)

section Item

variable (x : String) (k : Key) (n : String) (ds es : List Definition)

/-- An item in front of the others sets the flags of its key. -/
theorem columns_item_cons : (⟨n, k.definition x :: ds⟩ : TableDefinition).columns =
      Outline.changeNamed x k.mark (⟨n, ds⟩ : TableDefinition).columns ∨
    (k.reference? x).isSome ∧
      (⟨n, k.definition x :: ds⟩ : TableDefinition).columns = (⟨n, ds⟩ : TableDefinition).columns := by
  cases k with
  | primary =>
    refine .inl ?_
    have hnames : (⟨n, .primaryKey [x] :: ds⟩ : TableDefinition).primaryNames =
        x :: (⟨n, ds⟩ : TableDefinition).primaryNames := rfl
    have hunique : (⟨n, .primaryKey [x] :: ds⟩ : TableDefinition).uniqueNames =
        (⟨n, ds⟩ : TableDefinition).uniqueNames := rfl
    have hown : (⟨n, .primaryKey [x] :: ds⟩ : TableDefinition).ownColumns =
        (⟨n, ds⟩ : TableDefinition).ownColumns := rfl
    rw [Key.definition, TableDefinition.columns_eq, hnames, hunique, hown, List.foldl_cons,
      foldl_changeNamed_comm (f := markPrimaryKey) (g := markPrimaryKey) (fun _ => rfl) (fun _ => rfl) (fun _ => rfl),
      foldl_changeNamed_comm (f := markPrimaryKey) (g := markUnique) (fun _ => rfl) (fun _ => rfl) (fun _ => rfl)]
    rfl
  | unique =>
    refine .inl ?_
    exact foldl_changeNamed_comm (f := markUnique) (g := markUnique) (fun _ => rfl) (fun _ => rfl) (fun _ => rfl) x
      (⟨n, ds⟩ : TableDefinition).uniqueNames _
  | foreign t c => exact .inr ⟨rfl, rfl⟩

/-- An item anywhere makes a table with a key more. -/
theorem bears_item : Bears x k ⟨n, ds ++ es⟩ ⟨n, ds ++ k.definition x :: es⟩ where
  name := rfl
  columns := by
    have hkey : (k.definition x).isKey = true := by cases k <;> rfl
    have hmoved : Moved Definition.isKey (k.definition x :: (ds ++ es)) (ds ++ k.definition x :: es) :=
      ⟨List.perm_middle, by simp [hkey]⟩
    rw [columns_moved hmoved]
    exact columns_item_cons x k n (ds ++ es)
  references := by
    have hreference : (k.definition x).reference? = k.reference? x := by cases k <;> rfl
    refine ⟨ds.filterMap Definition.reference?, es.filterMap Definition.reference?, List.filterMap_append, ?_⟩
    rw [TableDefinition.references, List.filterMap_append, List.filterMap_cons, hreference]
    cases k.reference? x <;> rfl

end Item

section Settings

variable {x : String} {type : List Char} {ks ls : List Clause} {k : Key} {d e : Definition}

/-- What a column with settings is read as: it is there, or it is lost whatever its settings are. -/
inductive Reads (x : String) (type : List Char) (ks : List Clause) : Definition → Prop where
  | column (up : Bool) (h : StartsType type) : Reads x type ks (.column { given x type ks with countsUp := up })
  | lost (h : ¬ StartsType type) : Reads x type ks .unreadable

theorem reads_column {u : List Char} (hx : Plain x) (hd : Declarable x) (ht : IsType type) (h : IsColumn x type ks u) :
    Reads x type ks (Definition.read u) := by
  by_cases hstart : StartsType type
  · obtain ⟨s, hs, hread⟩ := read_column hx ht h hd hstart
    obtain ⟨up, heq⟩ : ∃ up, columnDefinition x.toList type s = { given x type ks with countsUp := up } :=
      columnDefinition_eq hs
    rw [hread, heq]
    exact .column up hstart
  · rw [read_lost hx ht h hd hstart]
    exact .lost hstart

/-- What it gives to a table: no key, and the column and the reference that its clauses tell. -/
theorem Reads.facts (h : Reads x type ks d) : d.primaryKeyColumns = [] ∧ d.uniqueColumn? = none ∧
    d.column?.map ColumnDefinition.outline =
      (if StartsType type then some (given x type ks).outline else none) ∧
    d.reference? = if StartsType type then (given x type ks).reference else none := by
  cases h with
  | column up h => exact ⟨rfl, rfl, by rw [if_pos h]; rfl, by rw [if_pos h]; rfl⟩
  | lost h => exact ⟨rfl, rfl, by rw [if_neg h]; rfl, by rw [if_neg h]; rfl⟩

section Middle

variable (n : String) (ds es : List Definition)

/-- What a table is made of, with one definition singled out. -/
theorem table_middle (d : Definition) :
    (⟨n, ds ++ d :: es⟩ : TableDefinition).ownColumns = (⟨n, ds⟩ : TableDefinition).ownColumns ++
        ((d.column?.map ColumnDefinition.outline).toList ++ (⟨n, es⟩ : TableDefinition).ownColumns) ∧
      (⟨n, ds ++ d :: es⟩ : TableDefinition).references = (⟨n, ds⟩ : TableDefinition).references ++
        (d.reference?.toList ++ (⟨n, es⟩ : TableDefinition).references) ∧
      (⟨n, ds ++ d :: es⟩ : TableDefinition).primaryNames = (⟨n, ds⟩ : TableDefinition).primaryNames ++
        (d.primaryKeyColumns ++ (⟨n, es⟩ : TableDefinition).primaryNames) ∧
      (⟨n, ds ++ d :: es⟩ : TableDefinition).uniqueNames = (⟨n, ds⟩ : TableDefinition).uniqueNames ++
        (d.uniqueColumn?.toList ++ (⟨n, es⟩ : TableDefinition).uniqueNames) := by
  have hcons {α : Type} (f : Definition → Option α) : (d :: es).filterMap f = (f d).toList ++ es.filterMap f := by
    rw [List.filterMap_cons]
    cases f d <;> rfl
  refine ⟨?_, ?_, ?_, ?_⟩
  · rw [TableDefinition.ownColumns, List.filterMap_append, hcons, List.map_append, List.map_append]
    cases d.column? <;> rfl
  · rw [TableDefinition.references, List.filterMap_append, hcons]
    rfl
  · rw [TableDefinition.primaryNames, List.flatMap_append, List.flatMap_cons]
    rfl
  · rw [TableDefinition.uniqueNames, List.filterMap_append, hcons]
    rfl

/-- The column of a table by itself is told by its clauses. -/
theorem table_middle_congr {d e : Definition} (hd : Reads x type ks d) (he : Reads x type ks e) :
    (⟨n, ds ++ d :: es⟩ : TableDefinition).columns = (⟨n, ds ++ e :: es⟩ : TableDefinition).columns ∧
      (⟨n, ds ++ d :: es⟩ : TableDefinition).references = (⟨n, ds ++ e :: es⟩ : TableDefinition).references := by
  obtain ⟨hdp, hdu, hdc, hdr⟩ := hd.facts
  obtain ⟨hep, heu, hec, her⟩ := he.facts
  obtain ⟨hdo, hdrefs, hdpn, hdun⟩ := table_middle n ds es d
  obtain ⟨heo, herefs, hepn, heun⟩ := table_middle n ds es e
  rw [TableDefinition.columns_eq, TableDefinition.columns_eq, hdo, hdpn, hdun, hdrefs, heo, hepn, heun, herefs, hdp,
    hdu, hdc, hdr, hep, heu, hec, her]
  exact ⟨rfl, rfl⟩

/-- A clause more among the settings of a column makes a table with a key more, where no other column has the name. -/
theorem bears_settings {d e : Definition} (hd : Reads x type (ks ++ ls) d) (he : Reads x type (ks ++ .key k :: ls) e)
    (hds : ∀ c ∈ (⟨n, ds⟩ : TableDefinition).ownColumns, nameKey c.name ≠ nameKey x)
    (hes : ∀ c ∈ (⟨n, es⟩ : TableDefinition).ownColumns, nameKey c.name ≠ nameKey x)
    (hk : (Clause.key k).namesUnique = false)
    (hforeign : (k.reference? x).isSome → StartsType type ∧ (ks ++ ls).findSome? Clause.target? = none) :
    Bears x k ⟨n, ds ++ d :: es⟩ ⟨n, ds ++ e :: es⟩ := by
  obtain ⟨hdp, hdu, hdc, hdr⟩ := hd.facts
  obtain ⟨hep, heu, hec, her⟩ := he.facts
  obtain ⟨hdo, hdrefs, hdpn, hdun⟩ := table_middle n ds es d
  obtain ⟨heo, herefs, hepn, heun⟩ := table_middle n ds es e
  refine ⟨rfl, .inl ?_, _, _, hdrefs, ?_⟩
  · refine TableDefinition.columns_of_own (by rw [hdpn, hepn, hdp, hep]) (by rw [hdun, heun, hdu, heu]) ?_
    rw [hdo, heo, hdc, hec, changeNamed_append hds]
    by_cases hstart : StartsType type
    · rw [if_pos hstart, if_pos hstart, outline_given_insert x type ks ls hk]
      simp [Outline.changeNamed, given, ColumnDefinition.outline]
    · rw [if_neg hstart, if_neg hstart, Option.toList_none, List.nil_append, changeNamed_eq_self hes]
  · rw [herefs, hdr, her]
    refine congrArg (_ ++ ·) ?_
    cases k with
    | primary => simp [given, List.findSome?_cons, Clause.target?, Key.reference?]
    | unique => simp [given, List.findSome?_cons, Clause.target?, Key.reference?]
    | foreign t c =>
      obtain ⟨hstart, hnone⟩ := hforeign rfl
      have hks : ks.findSome? Clause.target? = none := by
        rw [List.findSome?_append, Option.or_eq_none_iff] at hnone
        exact hnone.1
      rw [if_pos hstart, if_pos hstart, given, given, hnone, List.findSome?_append, hks, List.findSome?_cons]
      rfl

end Middle

end Settings

end Erd.Sql
