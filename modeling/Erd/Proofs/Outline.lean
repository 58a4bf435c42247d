import Erd.Reading
import Mathlib.Data.List.Forall2
import Mathlib.Data.List.Nodup

/-!
# Outlines and what is drawn of them

Names find places in an outline and ids find parts of a diagram. Drawing turns the first into the second:
a place that exists becomes an end that resolves to the table and the column drawn there, and no two parts
drawn share an id.

**Results.**
* `tableNamed?_eq_some`, `columnNamed?_eq_some`: what a name finds is there and has that name.
* `tableNamed?_of_nodup`, `columnNamed?_of_nodup`: where names are distinct a name finds its own part.
* `endpoint?_draw`: an end drawn for a place is the table and the column of that place.
* `nodup_tableIds_draw`, `nodup_columnIds_draw`: ids do not repeat.
* `outlines_draw`: without ids and positions the tables drawn are those of the outline.
* `namedLinks_draw`: told by names, the relationships drawn are the links of the outline.
-/
namespace Erd

/-! ## What is said without ids -/

/-- A column without its id. -/
def Column.outline (c : Column) : Outline.Column := ⟨c.name, c.type, c.constraints⟩

/-- A table without ids and position. -/
def Table.outline (t : Table) : Outline.Table := ⟨t.name, t.columns.map Column.outline⟩

/-- A relationship with the names at its ends in the place of ids. -/
structure NamedLink where
  cardinality : Cardinality
  sourceTable : String
  sourceColumn : String
  targetTable : String
  targetColumn : String
  deriving DecidableEq, Repr

/-- The names at the ends of a relationship. -/
def Resolved.named (p : Resolved) : NamedLink :=
  ⟨p.relationship.cardinality, p.sourceTable.name, p.sourceColumn.name, p.targetTable.name,
    p.targetColumn.name⟩

/-- The names at the ends of a relationship of a diagram, if it resolves. -/
def Diagram.named? (d : Diagram) (r : Relationship) : Option NamedLink :=
  (d.resolve r).map Resolved.named

theorem Diagram.mem_of_endpoint? {d : Diagram} {e : Endpoint} {t : Table} {c : Column}
    (h : d.endpoint? e = some (t, c)) : t ∈ d.tables ∧ c ∈ t.columns := by
  obtain ⟨ht, hc⟩ := endpoint?_eq_some h
  exact ⟨List.mem_of_find?_eq_some ht, List.mem_of_find?_eq_some hc⟩

/-- What a relationship resolves to is part of the diagram. -/
theorem Diagram.resolve_mem {d : Diagram} {r : Relationship} {p : Resolved} (h : d.resolve r = some p) :
    (p.sourceTable ∈ d.tables ∧ p.sourceColumn ∈ p.sourceTable.columns) ∧
      (p.targetTable ∈ d.tables ∧ p.targetColumn ∈ p.targetTable.columns) := by
  obtain ⟨a, ha, h⟩ := Option.bind_eq_some_iff.mp h
  obtain ⟨b, hb, h⟩ := Option.map_eq_some_iff.mp h
  cases h
  exact ⟨mem_of_endpoint? ha, mem_of_endpoint? hb⟩

/-! ## Matches in lists -/

section Matches

variable {α : Type} {p : α → Bool} {l : List α} {a : α}

theorem find?_of_unique (hm : a ∈ l) (hp : p a = true) (hu : ∀ b ∈ l, p b = true → b = a) :
    l.find? p = some a := by
  cases h : l.find? p with
  | none => exact absurd hp (List.find?_eq_none.mp h a hm)
  | some b => rw [hu b (List.mem_of_find?_eq_some h) (List.find?_some h)]

/-- Where keys are distinct, the first and the last with a key are one. -/
theorem find?_reverse_of_nodup {κ : Type} [DecidableEq κ] {key : α → κ} (hn : (l.map key).Nodup) (k : κ) :
    (l.reverse.find? fun b => key b == k) = l.find? fun b => key b == k := by
  cases h : l.find? fun b => key b == k with
  | none =>
    rw [List.find?_eq_none] at h ⊢
    exact fun b hb => h b (List.mem_reverse.mp hb)
  | some b =>
    have hb : key b = k := by simpa using List.find?_some h
    refine find?_of_unique (List.mem_reverse.mpr (List.mem_of_find?_eq_some h)) (by simp [hb]) ?_
    intro c hc hck
    refine List.inj_on_of_nodup_map hn (List.mem_reverse.mp hc) (List.mem_of_find?_eq_some h) ?_
    rw [hb]
    simpa using hck

/-- Where every element gives one that looks as told, nothing is dropped. -/
theorem map_filterMap_of_forall {β γ : Type} {f : α → Option β} {g : β → γ} {k : α → γ}
    (h : ∀ a ∈ l, ∃ b, f a = some b ∧ g b = k a) : (l.filterMap f).map g = l.map k := by
  induction l with
  | nil => rfl
  | cons a l ih =>
    obtain ⟨b, hb, hk⟩ := h a List.mem_cons_self
    rw [List.filterMap_cons_some hb, List.map_cons, List.map_cons, hk,
      ih fun c hc => h c (List.mem_cons_of_mem a hc)]

/-- What is picked of a list, under keys, is part of the list under keys that agree with them. -/
theorem map_filterMap_sublist {β γ : Type} {f : α → Option β} {g : β → γ} {k : α → γ}
    (h : ∀ a b, f a = some b → g b = k a) (l : List α) : ((l.filterMap f).map g).Sublist (l.map k) := by
  induction l with
  | nil => exact .slnil
  | cons a l ih =>
    cases hf : f a with
    | none =>
      rw [List.filterMap_cons_none hf]
      exact ih.cons _
    | some b =>
      rw [List.filterMap_cons_some hf, List.map_cons, h a b hf]
      exact ih.cons_cons _

/-- What is picked from the images is the image of what is picked, where each step commutes. -/
theorem filterMap_map_of_comm {β γ δ : Type} {f : α → β} {g : β → Option γ} {f' : δ → γ}
    {g' : α → Option δ} (h : ∀ a, g (f a) = (g' a).map f') (l : List α) :
    (l.map f).filterMap g = (l.filterMap g').map f' := by
  rw [List.filterMap_map, List.map_filterMap]
  exact congrArg (List.filterMap · l) (funext h)

/-- The same for what is made of each element and its index. -/
theorem mapIdx_map_of_comm {β γ δ : Type} {f : α → β} {g : Nat → β → γ} {f' : δ → γ} {g' : Nat → α → δ}
    (h : ∀ i a, g i (f a) = f' (g' i a)) (l : List α) : (l.map f).mapIdx g = (l.mapIdx g').map f' := by
  refine List.ext_getElem (by simp) fun i hi hi' => ?_
  rw [List.getElem_mapIdx, List.getElem_map, List.getElem_map, List.getElem_mapIdx, h]

/-- What is found among images is the image of what is found. -/
theorem find?_mapIdx {β : Type} {f : Nat → α → β} {p : β → Bool} {q : α → Bool} (h : ∀ i a, p (f i a) = q a)
    (l : List α) : (l.mapIdx f).find? p = (l.findIdx? q).bind fun j => l[j]?.map (f j) := by
  induction l generalizing f with
  | nil => rfl
  | cons a l ih =>
    rw [List.mapIdx_cons, List.find?_cons, List.findIdx?_cons, h]
    cases q a with
    | true => rfl
    | false =>
      rw [ih fun i a => h (i + 1) a, if_neg Bool.false_ne_true, Option.bind_map]
      rfl

theorem forall₂_mapIdx {β γ : Type} {R : α → β → Prop} {S : α → γ → Prop} {f : Nat → β → γ} {as : List α}
    {bs : List β} (hf : ∀ k a b, R a b → S a (f k b)) (h : List.Forall₂ R as bs) : List.Forall₂ S as (bs.mapIdx f) := by
  induction h generalizing f with
  | nil => exact .nil
  | cons hab _ ih =>
    rw [List.mapIdx_cons]
    exact .cons (hf 0 _ _ hab) (ih fun k a b => hf (k + 1) a b)

theorem forall_of_forall₂ {β : Type} {R : α → β → Prop} {P : β → Prop} (hP : ∀ a b, R a b → P b) {as : List α}
    {bs : List β} (h : List.Forall₂ R as bs) : ∀ b ∈ bs, P b := by
  induction h with
  | nil => simp
  | cons hab _ ih => exact List.forall_mem_cons.mpr ⟨hP _ _ hab, ih⟩

/-- Where two lists correspond, keys repeat in one as they do in the other if they agree for what corresponds. -/
theorem nodup_map_iff_of_forall₂ {β κ μ : Type} {R : α → β → Prop} {f : α → κ} {g : β → μ}
    (hR : ∀ {a b a' b'}, R a b → R a' b' → (f a = f a' ↔ g b = g b')) {as : List α} {bs : List β}
    (h : List.Forall₂ R as bs) : (as.map f).Nodup ↔ (bs.map g).Nodup := by
  refine List.rel_nodup (r := fun k m => ∃ a b, R a b ∧ f a = k ∧ g b = m) ⟨?_, ?_⟩ ?_
  · rintro _ _ _ ⟨a, b, h, rfl, rfl⟩ ⟨a', b', h', rfl, he⟩
    exact (hR h h').mpr he.symm
  · rintro _ _ _ ⟨a, b, h, rfl, rfl⟩ ⟨a', b', h', he, rfl⟩
    exact (hR h h').mp he.symm
  · rw [List.forall₂_map_left_iff, List.forall₂_map_right_iff]
    exact h.imp fun a b h => ⟨a, b, h, rfl, rfl⟩

end Matches

namespace Outline

/-! ## Names -/

/-- The names of the tables differ, case aside. -/
def DistinctTables (tables : List Table) : Prop := (tables.map fun t => nameKey t.name).Nodup

/-- The names of the columns of a table differ, case aside. -/
def Table.DistinctColumns (t : Table) : Prop := (t.columns.map fun c => nameKey c.name).Nodup

theorem tableNamed?_eq_some {tables : List Table} {name : String} {i : Nat} {t : Table}
    (h : tableNamed? tables name = some (i, t)) :
    tables[i]? = some t ∧ nameKey t.name = nameKey name := by
  obtain ⟨p, hp, he⟩ := Option.map_eq_some_iff.mp h
  cases he
  have hm := List.mem_reverse.mp (List.mem_of_find?_eq_some hp)
  exact ⟨List.mem_zipIdx_iff_getElem?.mp hm, by simpa using List.find?_some hp⟩

/-- Equal keys stand at equal places where the keys are distinct. -/
theorem index_eq_of_nodup {α κ : Type} {key : α → κ} {l : List α} (hn : (l.map key).Nodup) {i j : Nat}
    {a b : α} (ha : l[i]? = some a) (hb : l[j]? = some b) (hk : key a = key b) : i = j := by
  have hi : i < (l.map key).length := by
    rw [List.length_map]
    exact (List.getElem?_eq_some_iff.mp ha).1
  refine (List.getElem?_inj hi hn).mp ?_
  rw [List.getElem?_map, List.getElem?_map, ha, hb, Option.map_some, Option.map_some, hk]

/-- A name finds an image where it finds what the image is of, if the two go by the same name. -/
theorem tableNamed?_map {f : Table → Table} {m n : String}
    (hf : ∀ t, (nameKey (f t).name == nameKey m) = (nameKey t.name == nameKey n)) (tables : List Table) :
    tableNamed? (tables.map f) m = (tableNamed? tables n).map (Prod.map id f) := by
  have hkey : (fun p : Table × Nat => nameKey p.1.name == nameKey m) ∘ Prod.map f id =
      fun p => nameKey p.1.name == nameKey n := funext fun p => hf p.1
  rw [tableNamed?, List.zipIdx_map, ← List.map_reverse, List.find?_map, hkey, Option.map_map, tableNamed?,
    Option.map_map]
  rfl

theorem tableNamed?_of_nodup {tables : List Table} (hn : DistinctTables tables) {i : Nat} {t : Table}
    (ht : tables[i]? = some t) : tableNamed? tables t.name = some (i, t) := by
  have hm : (t, i) ∈ tables.zipIdx.reverse :=
    List.mem_reverse.mpr (List.mem_zipIdx_iff_getElem?.mpr ht)
  rw [tableNamed?, find?_of_unique hm (by simp)]
  · rfl
  · rintro ⟨u, j⟩ hu hk
    have hu' := List.mem_zipIdx_iff_getElem?.mp (List.mem_reverse.mp hu)
    have hij : j = i := index_eq_of_nodup hn hu' ht (by simpa using hk)
    subst hij
    rw [ht] at hu'
    cases hu'
    rfl

theorem columnNamed?_eq_some {t : Table} {name : String} {j : Nat} (h : t.columnNamed? name = some j) :
    ∃ c, t.columns[j]? = some c ∧ nameKey c.name = nameKey name := by
  obtain ⟨hj, hp, -⟩ := List.findIdx?_eq_some_iff_getElem.mp h
  exact ⟨t.columns[j], List.getElem?_eq_getElem hj, by simpa using hp⟩

theorem columnNamed?_of_nodup {t : Table} (hn : t.DistinctColumns) {j : Nat} {c : Column}
    (hc : t.columns[j]? = some c) : t.columnNamed? c.name = some j := by
  cases h : t.columnNamed? c.name with
  | none =>
    have := List.findIdx?_eq_none_iff.mp h c (List.mem_of_getElem? hc)
    simp at this
  | some k =>
    obtain ⟨d, hd, hk⟩ := columnNamed?_eq_some h
    rw [index_eq_of_nodup hn hd hc hk]

/-! ## Places -/

/-- The table and the column of a place. -/
def columnAt? (tables : List Table) (p : Place) : Option (Table × Column) :=
  (tables[p.table]?).bind fun t => (t.columns[p.column]?).map fun c => (t, c)

theorem columnAt?_eq_some {tables : List Table} {p : Place} {t : Table} {c : Column} :
    columnAt? tables p = some (t, c) ↔ tables[p.table]? = some t ∧ t.columns[p.column]? = some c := by
  constructor
  · intro h
    obtain ⟨u, hu, h⟩ := Option.bind_eq_some_iff.mp h
    obtain ⟨d, hd, h⟩ := Option.map_eq_some_iff.mp h
    cases h
    exact ⟨hu, hd⟩
  · rintro ⟨ht, hc⟩
    rw [columnAt?, ht, Option.bind_some, hc, Option.map_some]

/-- Both ends of every link are there. -/
def Linked (o : Outline) : Prop :=
  ∀ l ∈ o.links, (columnAt? o.tables l.source).isSome ∧ (columnAt? o.tables l.target).isSome

end Outline

/-! ## Drawing -/

namespace Outline

variable {o : Outline} {s : Sheet}

theorem nodup_map_mapIdx {α β κ : Type} {f : Nat → α → β} {key : β → κ} {l : List α}
    (hf : ∀ i j a b, key (f i a) = key (f j b) → i = j) : ((l.mapIdx f).map key).Nodup := by
  rw [List.nodup_iff_pairwise_ne, List.pairwise_iff_getElem]
  intro i j hi hj hij he
  rw [List.getElem_map, List.getElem_map, List.getElem_mapIdx, List.getElem_mapIdx] at he
  have := hf _ _ _ _ he
  omega

theorem nodup_tableIds_draw : ((o.draw s).tables.map Erd.Table.id).Nodup := by
  refine nodup_map_mapIdx fun i j t u h => ?_
  cases s.ids.injective h
  rfl

theorem nodup_columnIds_draw {t : Erd.Table} (ht : t ∈ (o.draw s).tables) :
    (t.columns.map Erd.Column.id).Nodup := by
  obtain ⟨i, hi, rfl⟩ := List.mem_mapIdx.mp ht
  refine nodup_map_mapIdx fun j k c d h => ?_
  cases s.ids.injective h
  rfl

theorem getElem?_tables_draw {i : Nat} {t : Table} (h : o.tables[i]? = some t) :
    (o.draw s).tables[i]? = some (s.table i t) := by
  rw [draw, List.getElem?_mapIdx, h, Option.map_some]

theorem table?_draw {i : Nat} {t : Table} (h : o.tables[i]? = some t) :
    (o.draw s).table? (s.tableId i) = some (s.table i t) := by
  refine find?_of_unique (List.mem_of_getElem? (getElem?_tables_draw h)) (by simp [Sheet.table]) ?_
  intro u hu hk
  obtain ⟨j, hj, rfl⟩ := List.mem_mapIdx.mp hu
  have hid : s.tableId j = s.tableId i := by simpa [Sheet.table] using hk
  cases s.ids.injective hid
  rw [(List.getElem?_eq_some_iff.mp h).2]

theorem column?_draw {i j : Nat} {t : Table} {c : Column} (h : t.columns[j]? = some c) :
    (s.table i t).column? (s.columnId i j) = some (s.column i j c) := by
  have hm : s.column i j c ∈ (s.table i t).columns := by
    refine List.mem_of_getElem? (i := j) ?_
    rw [Sheet.table, List.getElem?_mapIdx, h, Option.map_some]
  refine find?_of_unique hm (by simp [Sheet.column]) ?_
  intro u hu hk
  obtain ⟨k, hj, rfl⟩ := List.mem_mapIdx.mp hu
  have hid : s.columnId i k = s.columnId i j := by simpa [Sheet.column] using hk
  cases s.ids.injective hid
  rw [(List.getElem?_eq_some_iff.mp h).2]

/-- The end drawn for a place is the table and the column drawn there. -/
theorem endpoint?_draw {p : Place} {t : Table} {c : Column} (h : columnAt? o.tables p = some (t, c)) :
    (o.draw s).endpoint? (s.endpoint p) = some (s.table p.table t, s.column p.table p.column c) := by
  obtain ⟨ht, hc⟩ := columnAt?_eq_some.mp h
  rw [Diagram.endpoint?, Sheet.endpoint, table?_draw ht, Option.bind_some, column?_draw hc, Option.map_some]

theorem resolve_draw {k : Nat} {l : Link} {a b : Table × Column}
    (ha : columnAt? o.tables l.source = some a) (hb : columnAt? o.tables l.target = some b) :
    (o.draw s).resolve (s.relationship k l) =
      some ⟨s.relationship k l, s.table l.source.table a.1, s.column l.source.table l.source.column a.2,
        s.table l.target.table b.1, s.column l.target.table l.target.column b.2⟩ := by
  have h1 : (o.draw s).endpoint? (s.relationship k l).source = _ := endpoint?_draw ha
  have h2 : (o.draw s).endpoint? (s.relationship k l).target = _ := endpoint?_draw hb
  rw [Diagram.resolve, h1, Option.bind_some, h2, Option.map_some]

theorem outline_table (i : Nat) (t : Table) : (s.table i t).outline = t := by
  have hc : (t.columns.mapIdx (s.column i)).map Column.outline = t.columns := by
    refine List.ext_getElem (by simp) fun j hj hj' => ?_
    rw [List.getElem_map, List.getElem_mapIdx]
    rfl
  rw [Table.outline, Sheet.table, hc]

theorem outlines_draw : (o.draw s).tables.map Table.outline = o.tables := by
  refine List.ext_getElem (by simp [draw]) fun i hi hi' => ?_
  rw [List.getElem_map]
  simp only [draw, List.getElem_mapIdx, outline_table]

theorem names_draw (o : Outline) (s : Sheet) : (o.draw s).tables.map Erd.Table.name = o.tables.map Table.name := by
  have h := congrArg (List.map Table.name) (outlines_draw (o := o) (s := s))
  rwa [List.map_map] at h

theorem named?_draw {k : Nat} {l : Link} {a b : Table × Column}
    (ha : columnAt? o.tables l.source = some a) (hb : columnAt? o.tables l.target = some b) :
    (o.draw s).named? (s.relationship k l) =
      some ⟨l.cardinality, a.1.name, a.2.name, b.1.name, b.2.name⟩ := by
  rw [Diagram.named?, resolve_draw ha hb]
  rfl

/-- The names at the ends of a link of an outline, if they are there. -/
def named? (o : Outline) (l : Link) : Option NamedLink :=
  (columnAt? o.tables l.source).bind fun a =>
    (columnAt? o.tables l.target).map fun b => ⟨l.cardinality, a.1.name, a.2.name, b.1.name, b.2.name⟩

/-- Told by names, the relationships drawn are the links of the outline. -/
theorem namedLinks_draw (h : o.Linked) :
    (o.draw s).relationships.map (o.draw s).named? = o.links.map o.named? := by
  refine List.ext_getElem? fun k => ?_
  have hr : (o.draw s).relationships[k]? = o.links[k]?.map (s.relationship k) := List.getElem?_mapIdx
  rw [List.getElem?_map, List.getElem?_map, hr]
  cases hk : o.links[k]? with
  | none => rfl
  | some l =>
    obtain ⟨ha, hb⟩ := h l (List.mem_of_getElem? hk)
    obtain ⟨a, ha⟩ := Option.isSome_iff_exists.mp ha
    obtain ⟨b, hb⟩ := Option.isSome_iff_exists.mp hb
    rw [Option.map_some, Option.map_some, Option.map_some, named?_draw ha hb, named?, ha, hb]
    rfl

end Outline

/-- With a grid to place tables on a draft is always read. -/
theorem Draft.reading_eq {d : Draft} {s : Outline.Sheet} (hs : s.grid.columns ≠ 0) :
    d.reading s = .ok ⟨d.outline.draw s, d.diagnostics⟩ := by
  rw [reading, Outline.place, if_neg (by simp [hs])]

end Erd
