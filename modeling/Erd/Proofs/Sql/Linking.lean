import Erd.Proofs.Consistency

/-!
# What is linked, whatever the order

A link tells places, and places change as soon as tables change their order. Told without places, a foreign
key leads from a column of its own table to a table and a column there, and where names are distinct it does
so in whatever order the tables stand. So what the tables come to, each with its foreign keys marked, and
what is linked, told by names, can be said table by table.

**Results.**
* `tables_outline`: each table of an outline is made of its own definition and of what names lead to.
* `namedLinks_outline`: told by names, the links are those of one table after the other.
* `outline_perm`: tables in another order come to the same tables with the same links.
* `outline_shuffled`: foreign keys in another order only give the links another order.
* `links_remarked`: what is linked does not depend on what is marked.
-/
namespace Erd.Sql

/-! ## Where foreign keys lead -/

/-- The last table with a name. -/
def tableFound? (os : List Outline.Table) (name : String) : Option Outline.Table :=
  (Outline.tableNamed? os name).map Prod.snd

/-- The first column with a name. -/
def columnFound? (o : Outline.Table) (name : String) : Option Outline.Column :=
  (o.columnNamed? name).bind fun j => o.columns[j]?

/-- Where a foreign key leads: the table and the column that it refers to, and the index of the column that
refers to it. -/
structure Tie where
  table : Outline.Table
  column : Outline.Column
  child : Nat

/-- Where a foreign key of the table `o` leads among the tables `os`. -/
def tie? (os : List Outline.Table) (o : Outline.Table) (r : Reference) : Option Tie :=
  (tableFound? os r.table).bind fun t => (columnFound? t r.referenced).bind fun c =>
    (o.columnNamed? r.column).map fun j => ⟨t, c, j⟩

/-- The cardinality of a link from a column: it depends on whether the column is unique. -/
def linkCardinality (o : Outline.Table) (child : Nat) : Cardinality :=
  if (o.columns[child]?).any fun c => c.constraints.isUnique then .oneToOne else .oneToMany

/-- The link of a tie, told by names. -/
def Tie.named? (o : Outline.Table) (x : Tie) : Option NamedLink :=
  (o.columns[x.child]?).map fun c => ⟨linkCardinality o x.child, x.table.name, x.column.name, o.name, c.name⟩

/-- A table with the columns marked from which its foreign keys lead somewhere. -/
def linkedTable (os : List Outline.Table) (t : TableDefinition) : Outline.Table :=
  { t.outline with columns := t.outline.columns.mapIdx fun j c =>
      if t.references.any fun r => (tie? os t.outline r).any fun x => x.child == j then markForeignKey c
      else c }

/-- The links of a table, told by names. -/
def namedLinksOf (os : List Outline.Table) (t : TableDefinition) : List NamedLink :=
  t.references.filterMap fun r => (tie? os t.outline r).bind (Tie.named? t.outline)

section Tie

variable {os : List Outline.Table} {o : Outline.Table} {r : Reference} {i : Nat}

theorem child_of_tie? {x : Tie} (h : tie? os o r = some x) : ∃ c, o.columns[x.child]? = some c := by
  obtain ⟨t, -, h⟩ := Option.bind_eq_some_iff.mp h
  obtain ⟨c, -, h⟩ := Option.bind_eq_some_iff.mp h
  obtain ⟨j, hj, rfl⟩ := Option.map_eq_some_iff.mp h
  obtain ⟨c, hc, -⟩ := Outline.columnNamed?_eq_some hj
  exact ⟨c, hc⟩

/-- A foreign key that leads somewhere is linked to there. -/
theorem linked?_of_tie? {x : Tie} (h : tie? os o r = some x) (i : Nat) :
    ∃ s, linked? (link os i o r) = some ⟨linkCardinality o x.child, s, ⟨i, x.child⟩⟩ ∧
      Outline.columnAt? os s = some (x.table, x.column) := by
  obtain ⟨t, ht, h⟩ := Option.bind_eq_some_iff.mp h
  obtain ⟨c, hc, h⟩ := Option.bind_eq_some_iff.mp h
  obtain ⟨j, hj, rfl⟩ := Option.map_eq_some_iff.mp h
  obtain ⟨⟨k, t⟩, hk, rfl⟩ := Option.map_eq_some_iff.mp ht
  obtain ⟨parent, hp, hparent⟩ := Option.bind_eq_some_iff.mp hc
  refine ⟨⟨k, parent⟩, ?_, Outline.columnAt?_eq_some.mpr ⟨(Outline.tableNamed?_eq_some hk).1, hparent⟩⟩
  simp only [link, hk, hp, hj]
  rfl

/-- One that leads nowhere is not. -/
theorem linked?_of_tie?_none (h : tie? os o r = none) (i : Nat) : linked? (link os i o r) = none := by
  unfold link
  split
  · rfl
  · next k t hk =>
    split
    · next parent child hp hc =>
      obtain ⟨c, hparent, -⟩ := Outline.columnNamed?_eq_some hp
      rw [tie?, tableFound?, hk, Option.map_some, Option.bind_some, columnFound?, hp, Option.bind_some, hparent,
        Option.bind_some, hc] at h
      cases h
    · rfl

end Tie

/-! ## Whole outlines -/

section Outline

variable {ts : List TableDefinition}

theorem links_eq_flatMap (ts : List TableDefinition) : links ts = ts.zipIdx.flatMap fun q =>
    q.1.references.map (link (ts.map TableDefinition.outline) q.2 q.1.outline) := by
  rw [links, List.mapIdx_eq_zipIdx_map, ← List.flatMap_def]

theorem mem_links {l : Outline.Link} : l ∈ (links ts).filterMap linked? ↔
    ∃ i t, ts[i]? = some t ∧
      ∃ r ∈ t.references, linked? (link (ts.map TableDefinition.outline) i t.outline r) = some l := by
  simp only [links_eq_flatMap, List.filterMap_flatMap, List.mem_flatMap, List.filterMap_map, List.mem_filterMap,
    Prod.exists, List.mem_zipIdx_iff_getElem?, Function.comp_apply]
  exact ⟨fun ⟨t, i, h⟩ => ⟨i, t, h⟩, fun ⟨i, t, h⟩ => ⟨t, i, h⟩⟩

/-- A column is marked exactly if a foreign key of its own table leads from it somewhere. -/
theorem any_links {i j : Nat} {t : TableDefinition} (ht : ts[i]? = some t) :
    (((links ts).filterMap linked?).any fun l => l.target == ⟨i, j⟩) =
      t.references.any fun r =>
        (tie? (ts.map TableDefinition.outline) t.outline r).any fun x => x.child == j := by
  rw [Bool.eq_iff_iff, List.any_eq_true, List.any_eq_true]
  constructor
  · rintro ⟨l, hl, htarget⟩
    obtain ⟨k, u, hu, r, hr, hlink⟩ := mem_links.mp hl
    cases hx : tie? (ts.map TableDefinition.outline) u.outline r with
    | none =>
      rw [linked?_of_tie?_none hx] at hlink
      cases hlink
    | some x =>
      obtain ⟨s, hs, -⟩ := linked?_of_tie? hx k
      rw [hlink] at hs
      cases hs
      have hplace : (⟨k, x.child⟩ : Outline.Place) = ⟨i, j⟩ := by simpa using htarget
      cases hplace
      rw [ht] at hu
      cases hu
      exact ⟨r, hr, by simp [hx]⟩
  · rintro ⟨r, hr, hany⟩
    cases hx : tie? (ts.map TableDefinition.outline) t.outline r with
    | none =>
      rw [hx] at hany
      cases hany
    | some x =>
      obtain ⟨s, hs, -⟩ := linked?_of_tie? hx i
      rw [hx, Option.any_some] at hany
      exact ⟨_, mem_links.mpr ⟨i, t, ht, r, hr, hs⟩, by simpa using hany⟩

/-- Of a table an outline only holds the columns and the foreign keys. -/
theorem outline_congr {us : List TableDefinition} {t u : TableDefinition} (ho : u.outline = t.outline)
    (hr : u.references = t.references) : outline (ts ++ u :: us) = outline (ts ++ t :: us) := by
  have houtlines : (ts ++ u :: us).map TableDefinition.outline = (ts ++ t :: us).map TableDefinition.outline := by
    rw [List.map_append, List.map_append, List.map_cons, List.map_cons, ho]
  have hlinks : links (ts ++ u :: us) = links (ts ++ t :: us) := by
    rw [links, links, houtlines, List.mapIdx_append, List.mapIdx_append, List.mapIdx_cons, List.mapIdx_cons, ho, hr]
  rw [outline, outline, houtlines, hlinks]

/-- Each table of an outline is made of its own definition and of what the names in it lead to. -/
theorem tables_outline (ts : List TableDefinition) :
    (outline ts).tables = ts.map (linkedTable (ts.map TableDefinition.outline)) := by
  refine List.ext_getElem (by simp [outline]) fun i hi hi' => ?_
  have hts : i < ts.length := by simpa using hi'
  have ht : ts[i]? = some ts[i] := List.getElem?_eq_getElem hts
  simp only [outline, List.getElem_mapIdx, List.getElem_map, markLinked, linkedTable, any_links ht]

/-- The link of a foreign key has the names of what it leads to. -/
theorem named?_link {os : List Outline.Table} {i : Nat} {o : Outline.Table} (hi : os[i]? = some o)
    (r : Reference) (found ls : List Outline.Link) :
    (linked? (link os i o r)).map (Outline.named? ⟨os.mapIdx (markLinked found), ls⟩) =
      ((tie? os o r).bind (Tie.named? o)).map some := by
  cases hx : tie? os o r with
  | none =>
    rw [linked?_of_tie?_none hx]
    rfl
  | some x =>
    obtain ⟨s, hs, hsource⟩ := linked?_of_tie? hx i
    obtain ⟨c, hc⟩ := child_of_tie? hx
    obtain ⟨t, e, ht, htn, hen⟩ := columnAt?_marked hsource found
    obtain ⟨u, f, hu, hun, hfn⟩ :=
      columnAt?_marked (p := ⟨i, x.child⟩) (Outline.columnAt?_eq_some.mpr ⟨hi, hc⟩) found
    rw [hs, Option.map_some, Option.bind_some, Tie.named?, hc, Outline.named?, ht, Option.bind_some, hu]
    simp only [Option.map_some, htn, hen, hun, hfn]

/-- Told by names, the links are those of one table after the other. -/
theorem namedLinks_outline (ts : List TableDefinition) :
    (outline ts).links.map (outline ts).named? =
      (ts.flatMap (namedLinksOf (ts.map TableDefinition.outline))).map some := by
  have hsplit : ts = ts.zipIdx.map Prod.fst := (List.zipIdx_map_fst ..).symm
  conv_rhs => arg 2; arg 2; rw [hsplit]
  rw [outline, links_eq_flatMap, List.filterMap_flatMap, List.map_flatMap, List.flatMap_map, List.map_flatMap]
  refine List.flatMap_congr fun q hq => ?_
  have hi : (ts.map TableDefinition.outline)[q.2]? = some q.1.outline := by
    rw [List.getElem?_map, List.mem_zipIdx_iff_getElem?.mp hq, Option.map_some]
  rw [List.filterMap_map, List.map_filterMap, namedLinksOf, List.map_filterMap]
  exact List.filterMap_congr fun r _ => named?_link hi r _ _

end Outline

/-! ## Tables in another order -/

section Order

variable {os ps : List Outline.Table}

/-- Where names are distinct, what a name leads to is the table that has it. -/
theorem tableFound?_eq_some_iff (h : Outline.DistinctTables os) {name : String} {o : Outline.Table} :
    tableFound? os name = some o ↔ o ∈ os ∧ nameKey o.name = nameKey name := by
  constructor
  · intro ho
    obtain ⟨⟨i, t⟩, ht, rfl⟩ := Option.map_eq_some_iff.mp ho
    obtain ⟨hi, hname⟩ := Outline.tableNamed?_eq_some ht
    exact ⟨List.mem_of_getElem? hi, hname⟩
  · rintro ⟨ho, hname⟩
    obtain ⟨i, hi⟩ := List.mem_iff_getElem?.mp ho
    have hfound := Outline.tableNamed?_of_nodup h hi
    rw [Outline.tableNamed?, hname] at hfound
    rw [tableFound?, Outline.tableNamed?, hfound]
    rfl

theorem distinctTables_perm (h : ps.Perm os) : Outline.DistinctTables ps ↔ Outline.DistinctTables os := by
  rw [Outline.DistinctTables, Outline.DistinctTables]
  exact (h.map _).nodup_iff

theorem tableFound?_perm (hd : Outline.DistinctTables os) (h : ps.Perm os) :
    tableFound? ps = tableFound? os := by
  refine funext fun name => Option.ext fun o => ?_
  rw [tableFound?_eq_some_iff ((distinctTables_perm h).mpr hd), tableFound?_eq_some_iff hd, h.mem_iff]

/-- Where the tables stand does not matter to what a foreign key leads to. -/
theorem tie?_perm (hd : Outline.DistinctTables os) (h : ps.Perm os) : tie? ps = tie? os := by
  funext o r
  rw [tie?, tie?, tableFound?_perm hd h]

theorem linkedTable_perm (hd : Outline.DistinctTables os) (h : ps.Perm os) :
    linkedTable ps = linkedTable os := by
  funext t
  rw [linkedTable, linkedTable, tie?_perm hd h]

theorem namedLinksOf_perm (hd : Outline.DistinctTables os) (h : ps.Perm os) :
    namedLinksOf ps = namedLinksOf os := by
  funext t
  rw [namedLinksOf, namedLinksOf, tie?_perm hd h]

/-- Tables in another order come to the same tables, with the same links between them. -/
theorem outline_perm {ts us : List TableDefinition} (h : us.Perm ts)
    (hd : Outline.DistinctTables (ts.map TableDefinition.outline)) :
    (outline us).tables.Perm (outline ts).tables ∧
      ((outline us).links.map (outline us).named?).Perm ((outline ts).links.map (outline ts).named?) := by
  have ho : (us.map TableDefinition.outline).Perm (ts.map TableDefinition.outline) := h.map _
  rw [tables_outline, tables_outline, namedLinks_outline, namedLinks_outline, linkedTable_perm hd ho,
    namedLinksOf_perm hd ho]
  exact ⟨h.map _, (h.flatMap_right _).map _⟩

end Order

/-! ## Foreign keys in another order -/

/-- The same table with its foreign keys in another order. -/
structure Shuffled (t u : TableDefinition) : Prop where
  outline : u.outline = t.outline
  references : u.references.Perm t.references

theorem Shuffled.refl (t : TableDefinition) : Shuffled t t := ⟨rfl, List.Perm.refl _⟩

theorem Shuffled.linkedTable {t u : TableDefinition} (h : Shuffled t u) (os : List Outline.Table) :
    linkedTable os u = linkedTable os t := by
  rw [Sql.linkedTable, Sql.linkedTable, h.outline]
  simp only [h.references.any_eq]

theorem Shuffled.namedLinksOf {t u : TableDefinition} (h : Shuffled t u) (os : List Outline.Table) :
    (namedLinksOf os u).Perm (namedLinksOf os t) := by
  rw [Sql.namedLinksOf, Sql.namedLinksOf, h.outline]
  exact h.references.filterMap _

section Shuffled

variable {ts us : List TableDefinition} (h : List.Forall₂ Shuffled ts us)

include h

theorem map_eq_of_shuffled {α : Type} {f : TableDefinition → α} (hf : ∀ t u, Shuffled t u → f u = f t) :
    us.map f = ts.map f := by
  induction h with
  | nil => rfl
  | cons htu _ ih => rw [List.map_cons, List.map_cons, hf _ _ htu, ih]

theorem namedLinks_shuffled (os : List Outline.Table) :
    (us.flatMap (namedLinksOf os)).Perm (ts.flatMap (namedLinksOf os)) := by
  induction h with
  | nil => exact List.Perm.refl _
  | cons htu _ ih =>
    rw [List.flatMap_cons, List.flatMap_cons]
    exact (htu.namedLinksOf os).append ih

/-- Tables with their foreign keys in another order are the same, and so are the links between them but for
their order. -/
theorem outline_shuffled : (outline us).tables = (outline ts).tables ∧
    ((outline us).links.map (outline us).named?).Perm ((outline ts).links.map (outline ts).named?) := by
  have ho := map_eq_of_shuffled h fun t u htu => htu.outline
  rw [tables_outline, tables_outline, namedLinks_outline, namedLinks_outline, ho]
  exact ⟨map_eq_of_shuffled h fun t u htu => htu.linkedTable _, (namedLinks_shuffled h _).map _⟩

end Shuffled

/-! ## Columns that are marked already -/

/-- The column without the mark of a foreign key. -/
def unmark (c : Outline.Column) : Outline.Column :=
  { c with constraints := { c.constraints with isForeignKey := false } }

/-- The table without marks of foreign keys. -/
def unmarked (o : Outline.Table) : Outline.Table := { o with columns := o.columns.map unmark }

/-- What is linked does not depend on what is marked. -/
theorem link_unmarked (os : List Outline.Table) (i : Nat) (o : Outline.Table) (r : Reference) :
    link (os.map unmarked) i (unmarked o) r = link os i o r := by
  have hcolumn (t : Outline.Table) (name : String) : (unmarked t).columnNamed? name = t.columnNamed? name := by
    rw [Outline.Table.columnNamed?, unmarked, List.findIdx?_map]
    rfl
  have hunique (j : Nat) : ((unmarked o).columns[j]?).any (fun c => c.constraints.isUnique) =
      (o.columns[j]?).any fun c => c.constraints.isUnique := by
    rw [unmarked, List.getElem?_map, Option.any_map]
    rfl
  have htable : Outline.tableNamed? (os.map unmarked) r.table =
      (Outline.tableNamed? os r.table).map (Prod.map id unmarked) :=
    Outline.tableNamed?_map (f := unmarked) (fun _ => rfl) os
  rw [link, link, htable]
  cases Outline.tableNamed? os r.table with
  | none => rfl
  | some p => simp only [Option.map_some, Prod.map_snd, Prod.map_fst, hcolumn, hunique, id_eq]; rfl

/-- The same table, with marks of its own and its foreign keys in another order. -/
structure Remarked (t u : TableDefinition) : Prop where
  outline : unmarked u.outline = unmarked t.outline
  references : u.references.Perm t.references

/-- Marks do not matter to what is linked, and the order of foreign keys only to its order. -/
theorem links_remarked {ts us : List TableDefinition} (h : List.Forall₂ Remarked ts us) :
    (links us).Perm (links ts) := by
  have hlinks (vs : List TableDefinition) : links vs = vs.zipIdx.flatMap fun q => q.1.references.map
      (link (vs.map fun v => unmarked v.outline) q.2 (unmarked q.1.outline)) := by
    rw [links_eq_flatMap]
    refine List.flatMap_congr fun q _ => List.map_congr_left fun r _ => ?_
    have hmap : (vs.map fun v => unmarked v.outline) = (vs.map TableDefinition.outline).map unmarked := by
      rw [List.map_map]
      rfl
    rw [hmap, link_unmarked]
  have houtlines : (us.map fun v => unmarked v.outline) = ts.map fun v => unmarked v.outline := by
    induction h with
    | nil => rfl
    | cons htu _ ih => rw [List.map_cons, List.map_cons, htu.outline, ih]
  rw [hlinks, hlinks, houtlines]
  generalize (ts.map fun v => unmarked v.outline) = os
  generalize 0 = n
  clear hlinks houtlines
  induction h generalizing n with
  | nil => exact List.Perm.refl _
  | cons htu _ ih =>
    rw [List.zipIdx_cons, List.zipIdx_cons, List.flatMap_cons, List.flatMap_cons, htu.outline]
    exact (htu.references.map _).append (ih (n + 1))

/-- Tables whose marks are those of the links anyway come to the same tables. -/
theorem markLinked_perm {ls ms : List Outline.Link} (h : ms.Perm ls) : markLinked ms = markLinked ls := by
  funext i t
  simp only [markLinked, h.any_eq]

end Erd.Sql
