import Erd.Proofs.Sql.TableOrder
import Mathlib.Data.List.Dedup

/-!
# Ties in the order of tables

The tables that refer to none come first, in their given order. When a table leaves the queue, all that waited for it
alone join at once, and nothing in the queue looks at their given order again: they join in the order in which the
last relationships to them are drawn. So the order in which relationships are drawn shows in the order of the tables,
and it does exactly where one table frees several.

**Results.**
* `release_eq_filter`: letting a table go frees, in the order of their last relationships, those that it alone held up.
* `Progress.drain_eq`, `orderedIds_eq`: every table placed is followed by those that it frees, block after block.
* `Progress.drain_congr`: two runs are one where every table frees the same tables in the same order.
* `tableOrder_ties`: what drawing the relationships in another order does to the order of the tables.
* `not_tableOrder_perm_fork`: two tables that change places with the relationships to them.
-/
namespace Erd.Sql

/-! ## What a table frees -/

/-- The tables that a table frees when tables are placed in an order: those that refer to it and to none after it.
They come in the order in which the last relationships to them are drawn. -/
def freedBy (edges : List (String × String)) (order : List String) (id : String) : List String :=
  (dependents edges id).dedup.filter fun k =>
    edges.all fun e => e.2 != k || decide (order.idxOf e.1 ≤ order.idxOf id)

/-- Where all relationships that are closed are open before, an id is freed with its last one, and only if there are
no others. -/
theorem release_eq_filter {counts : OpenCounts} {ids : List String} (h : ∀ k, ids.count k ≤ counts.get k) :
    (release counts ids).2 = ids.dedup.filter fun k => counts.get k == ids.count k := by
  induction ids generalizing counts with
  | nil => rfl
  | cons id ids ih =>
    have hget (k : String) := OpenCounts.get_close id k counts
    have hid : ids.count id + 1 ≤ counts.get id := by simpa using h id
    have hrest : ∀ k, ids.count k ≤ (counts.close id).get k := by
      intro k
      rw [hget]
      by_cases hk : k = id
      · rw [if_pos hk, hk]
        omega
      · rw [if_neg hk]
        exact List.count_le_count_cons.trans (h k)
    have hsame : ∀ k, ((counts.close id).get k == ids.count k) = (counts.get k == (id :: ids).count k) := by
      intro k
      rw [hget, Bool.eq_iff_iff, beq_iff_eq, beq_iff_eq]
      by_cases hk : k = id
      · rw [if_pos hk, hk, List.count_cons_self]
        omega
      · rw [if_neg hk, List.count_cons_of_ne (Ne.symm hk)]
    rw [release, ih hrest, List.filter_congr fun k _ => hsame k]
    by_cases hmem : id ∈ ids
    · have hpos := List.count_pos_iff.mpr hmem
      rw [List.dedup_cons_of_mem hmem, if_neg (by omega)]
    · have hzero := List.count_eq_zero.mpr hmem
      rw [List.dedup_cons_of_notMem hmem, List.filter_cons, List.count_cons_self, hzero]
      simp only [beq_iff_eq, Nat.zero_add]

theorem mem_freedBy {edges : List (String × String)} {order : List String} {id k : String}
    (h : k ∈ freedBy edges order id) : (id, k) ∈ edges :=
  mem_dependents.mp (List.mem_dedup.mp (List.mem_of_mem_filter h))

theorem nodup_freedBy (edges : List (String × String)) (order : List String) (id : String) :
    (freedBy edges order id).Nodup := (List.nodup_dedup _).filter _

/-- Relationships drawn in another order free the same tables. -/
theorem perm_freedBy {edges edges' : List (String × String)} (h : edges.Perm edges') (order : List String)
    (id : String) : (freedBy edges order id).Perm (freedBy edges' order id) := by
  have hall (k : String) : (edges.all fun e => e.2 != k || decide (order.idxOf e.1 ≤ order.idxOf id)) =
      edges'.all fun e => e.2 != k || decide (order.idxOf e.1 ≤ order.idxOf id) := h.all_eq
  rw [freedBy, List.filter_congr fun k _ => hall k]
  exact ((h.filterMap _).dedup).filter _

/-- Up to a place in a list stand its elements of no greater index. -/
theorem idxOf_le_idxOf_iff {done rest : List String} {id : String} (h : id ∉ done) (a : String) :
    (done ++ id :: rest).idxOf a ≤ (done ++ id :: rest).idxOf id ↔ a ∈ done ++ [id] := by
  rw [List.idxOf_append_of_notMem h, List.idxOf_cons_self, List.mem_append, List.mem_singleton]
  by_cases ha : a ∈ done
  · have hlt := List.idxOf_lt_length_of_mem ha
    rw [List.idxOf_append_of_mem ha]
    exact ⟨fun _ => .inl ha, fun _ => by omega⟩
  · rw [List.idxOf_append_of_notMem ha]
    constructor
    · intro hle
      have hzero : (id :: rest).idxOf a = 0 := by omega
      by_contra hne
      have hid : id ≠ a := fun he => hne (.inr he.symm)
      rw [List.idxOf_cons_ne rest hid] at hzero
      omega
    · rintro (hm | rfl)
      · exact absurd hm ha
      · rw [List.idxOf_cons_self]

/-! ## The queue, block after block -/

section Queue

variable {ids : List String} {edges edges' : List (String × String)} {done queue : List String}
  {counts counts' : OpenCounts}

/-- The table at the head of the queue frees what it frees in any order that starts as the queue has run so far. -/
theorem Progress.release_eq_freedBy (hedges : ∀ e ∈ edges, e.2 ∈ ids) {id : String}
    (h : Progress ids edges done (id :: queue) counts) (rest : List String) :
    (release counts (dependents edges id)).2 = freedBy edges (done ++ id :: rest) id := by
  have hid : id ∉ done := fun hm => List.disjoint_of_nodup_append h.nodup hm List.mem_cons_self
  have hopen : ∀ k ∈ dependents edges id,
      counts.get k = openInto edges (done ++ [id]) k + (dependents edges id).count k := fun k hk => by
    rw [h.counted k (hedges _ (mem_dependents.mp hk)), openInto_concat edges hid k]
  rw [release_eq_filter, freedBy]
  · refine List.filter_congr fun k hk => ?_
    rw [hopen k (List.mem_dedup.mp hk), Bool.eq_iff_iff, beq_iff_eq, List.all_eq_true]
    have hzero : openInto edges (done ++ [id]) k + (dependents edges id).count k = (dependents edges id).count k ↔
        openInto edges (done ++ [id]) k = 0 := by omega
    rw [hzero, openInto_eq_zero]
    refine forall₂_congr fun e _ => ?_
    rw [Bool.or_eq_true, bne_iff_ne, decide_eq_true_eq, idxOf_le_idxOf_iff hid, imp_iff_not_or]
  · intro k
    by_cases hk : k ∈ dependents edges id
    · rw [hopen k hk]
      omega
    · rw [List.count_eq_zero.mpr hk]
      omega

/-- What leaves the queue is what was in it, and then what each table that leaves it frees. -/
theorem Progress.drain_eq (hedges : ∀ e ∈ edges, e.2 ∈ ids) (h : Progress ids edges done queue counts) :
    Sql.drain edges queue counts = queue ++
      (Sql.drain edges queue counts).flatMap (freedBy edges (done ++ Sql.drain edges queue counts)) := by
  fun_induction Sql.drain edges queue counts generalizing done with
  | case1 counts => rfl
  | case2 counts id queue freed hw =>
    rename_i ih
    have hlater := ih (h.step hedges)
    rw [← List.append_cons] at hlater
    have hfreed : freed.2 = _ := h.release_eq_freedBy hedges (Sql.drain edges (queue ++ freed.2) freed.1)
    rw [List.flatMap_cons, ← hfreed, List.cons_append, ← List.append_assoc, ← hlater]

/-- Two runs from one state are one if every table frees the same tables in the same order. -/
theorem Progress.drain_congr (hedges : ∀ e ∈ edges, e.2 ∈ ids) (hedges' : ∀ e ∈ edges', e.2 ∈ ids)
    (h : Progress ids edges done queue counts) (h' : Progress ids edges' done queue counts')
    (hfreed : ∀ id ∈ Sql.drain edges queue counts, freedBy edges (done ++ Sql.drain edges queue counts) id =
      freedBy edges' (done ++ Sql.drain edges queue counts) id) :
    Sql.drain edges queue counts = Sql.drain edges' queue counts' := by
  fun_induction Sql.drain edges queue counts generalizing done counts' with
  | case1 counts => rw [Sql.drain]
  | case2 counts id queue freed hw =>
    rename_i ih
    have hhead := hfreed id List.mem_cons_self
    rw [← h.release_eq_freedBy hedges, ← h'.release_eq_freedBy hedges'] at hhead
    have hstep' := h'.step hedges'
    rw [← hhead] at hstep'
    have hlater := ih (h.step hedges) hstep' fun k hk => by
      rw [← List.append_cons]
      exact hfreed k (List.mem_cons_of_mem id hk)
    rw [Sql.drain, ← hhead, ← hlater]

end Queue

/-! ## Relationships drawn in another order -/

section Tables

variable {tables : List Table} {relationships relationships' : List Relationship}

/-- How ties are resolved. The tables that refer to none come first, in their given order; behind those that are in
the queue already, every table is followed by the tables that it frees. -/
def TiesDrawn (tables : List Table) (relationships : List Relationship) : Prop :=
  let ids := tables.map Table.id
  let edges := dependencies ids relationships
  let order := (orderedTables tables relationships).map Table.id
  order = (ids.filter fun id => edges.all fun e => e.2 != id) ++ order.flatMap (freedBy edges order)

/-- In the order that the first relationships give, every table frees the same tables in the same order, whichever way
the relationships are drawn. -/
def SameTies (tables : List Table) (relationships relationships' : List Relationship) : Prop :=
  let edges := dependencies (tables.map Table.id)
  let order := (orderedTables tables relationships).map Table.id
  ∀ id ∈ order, freedBy (edges relationships) order id = freedBy (edges relationships') order id

theorem perm_dependencies (hp : relationships.Perm relationships') (ids : List String) :
    (dependencies ids relationships).Perm (dependencies ids relationships') := hp.filterMap _

theorem precedes_perm (hp : relationships.Perm relationships') :
    Precedes tables relationships = Precedes tables relationships' := by
  funext a b
  simp only [Precedes, hp.mem_iff]

/-- The relationships from a table are all that tells what depends on it. -/
theorem dependents_filter (ids : List String) (relationships : List Relationship) (id : String) :
    dependents (dependencies ids (relationships.filter fun r => r.source.table == id)) id =
      dependents (dependencies ids relationships) id := by
  rw [dependents, dependents, dependencies, dependencies, List.filterMap_filterMap, List.filterMap_filterMap,
    List.filterMap_filter]
  refine List.filterMap_congr fun r _ => ?_
  by_cases hid : r.source.table = id
  · simp [hid]
  · split
    · next h => exact absurd (by simpa using h) hid
    · split <;> simp [hid]

/-- The queue starts with the ids that no relationship leads into. -/
theorem filter_openCounts (ids : List String) (edges : List (String × String)) :
    (ids.filter fun id => (openCounts ids edges).get id == 0) = ids.filter fun id => edges.all fun e => e.2 != id := by
  refine List.filter_congr fun id hid => ?_
  rw [get_openCounts _ hid, Bool.eq_iff_iff, beq_iff_eq, openInto_eq_zero, List.all_eq_true]
  refine forall₂_congr fun e _ => ?_
  rw [bne_iff_ne, List.mem_nil_iff, imp_false]

/-- Blocks of equal lengths that make up one list are equal. -/
theorem eq_of_flatMap_eq {α β : Type} {f g : α → List β} {l : List α}
    (hlen : ∀ a ∈ l, (f a).length = (g a).length) (h : l.flatMap f = l.flatMap g) : ∀ a ∈ l, f a = g a := by
  induction l with
  | nil => exact List.forall_mem_nil _
  | cons b l ih =>
    obtain ⟨hb, hl⟩ := List.forall_mem_cons.mp hlen
    obtain ⟨hhead, htail⟩ := List.append_inj h hb
    exact List.forall_mem_cons.mpr ⟨hhead, ih hl htail⟩

section Ids

variable (h : (tables.map Table.id).Nodup)

include h

/-- Ties are resolved as the relationships are drawn. -/
theorem tiesDrawn (relationships : List Relationship) : TiesDrawn tables relationships := by
  have hstart := @Progress.start _ (dependencies (tables.map Table.id) relationships) h
  have hblocks := hstart.drain_eq target_mem_of_dependencies
  rw [List.nil_append, filter_openCounts] at hblocks
  rw [TiesDrawn, ids_orderedTables relationships h, orderedIds, filter_openCounts]
  exact hblocks

theorem perm_orderedIds (hp : relationships.Perm relationships') :
    (orderedIds (tables.map Table.id) relationships).Perm (orderedIds (tables.map Table.id) relationships') := by
  have hsub {as bs : List Relationship} (hab : as.Perm bs) {id : String}
      (hid : id ∈ orderedIds (tables.map Table.id) as) : id ∈ orderedIds (tables.map Table.id) bs := by
    obtain ⟨t, ht, rfl⟩ := List.mem_map.mp (mem_of_mem_orderedIds hid)
    rw [mem_orderedIds_iff _ h ht, DependsOnCircle] at hid ⊢
    rwa [← precedes_perm hab]
  exact (List.perm_ext_iff_of_nodup (nodup_orderedIds _ h) (nodup_orderedIds _ h)).mpr fun id => ⟨hsub hp, hsub hp.symm⟩

/-- The order is the same exactly if every table frees the same tables in the same order. -/
theorem orderedIds_eq_iff (hp : relationships.Perm relationships') :
    orderedIds (tables.map Table.id) relationships = orderedIds (tables.map Table.id) relationships' ↔
      SameTies tables relationships relationships' := by
  have hedges := perm_dependencies hp (tables.map Table.id)
  have hseeds (id : String) : ((dependencies (tables.map Table.id) relationships').all fun e => e.2 != id) =
      (dependencies (tables.map Table.id) relationships).all fun e => e.2 != id := hedges.symm.all_eq
  unfold SameTies
  rw [ids_orderedTables relationships h]
  constructor
  · intro hsame
    have hdrawn := tiesDrawn h relationships
    have hdrawn' := tiesDrawn h relationships'
    rw [TiesDrawn, ids_orderedTables _ h] at hdrawn hdrawn'
    rw [← hsame, List.filter_congr fun id _ => hseeds id] at hdrawn'
    exact eq_of_flatMap_eq (fun id _ => (perm_freedBy hedges _ id).length_eq)
      (List.append_cancel_left (hdrawn.symm.trans hdrawn'))
  · intro hties
    have hstart := @Progress.start _ (dependencies (tables.map Table.id) relationships) h
    have hstart' := @Progress.start _ (dependencies (tables.map Table.id) relationships') h
    have hqueue := filter_openCounts (tables.map Table.id) (dependencies (tables.map Table.id) relationships')
    rw [List.filter_congr fun id _ => hseeds id, ← filter_openCounts] at hqueue
    rw [orderedIds, orderedIds, hqueue]
    rw [hqueue] at hstart'
    exact hstart.drain_congr target_mem_of_dependencies target_mem_of_dependencies hstart' hties

/-- What leaves the queue is all that tells the order of the tables. -/
theorem tableOrder_eq_iff (hp : relationships.Perm relationships') :
    tableOrder tables relationships = tableOrder tables relationships' ↔
      orderedIds (tables.map Table.id) relationships = orderedIds (tables.map Table.id) relationships' := by
  constructor
  · intro hsame
    have hids := congrArg (List.map Table.id) hsame
    rw [tableOrder, tableOrder, List.map_append, List.map_append, ids_orderedTables _ h, ids_orderedTables _ h] at hids
    exact List.append_inj_left hids (perm_orderedIds h hp).length_eq
  · intro hsame
    rw [tableOrder, tableOrder, orderedTables, orderedTables, circularTables, circularTables, hsame]

/-- The tables that depend on a circle are the same in the same order. -/
theorem circularTables_perm (hp : relationships.Perm relationships') :
    circularTables tables relationships = circularTables tables relationships' := by
  refine List.filter_congr fun t _ => ?_
  rw [Bool.eq_iff_iff, Bool.not_eq_true', Bool.not_eq_true', List.contains_eq_mem, List.contains_eq_mem,
    decide_eq_false_iff_not, decide_eq_false_iff_not, (perm_orderedIds h hp).mem_iff]

end Ids

/-- Ties are the same where the relationships from one table keep their order. -/
theorem sameTies_of_filter (h : ∀ id, (relationships.filter fun r => r.source.table == id) =
      relationships'.filter fun r => r.source.table == id)
    (hp : relationships.Perm relationships') : SameTies tables relationships relationships' := by
  intro id _
  have hdependents : dependents (dependencies (tables.map Table.id) relationships) id =
      dependents (dependencies (tables.map Table.id) relationships') id := by
    rw [← dependents_filter _ relationships, ← dependents_filter _ relationships', h id]
  rw [freedBy, freedBy, hdependents]
  exact List.filter_congr fun k _ => (perm_dependencies hp _).all_eq

/-- Ties are the same where no two tables refer to one. -/
theorem sameTies_of_single (h : ∀ a b c, Precedes tables relationships a b → Precedes tables relationships a c → b = c)
    (hp : relationships.Perm relationships') : SameTies tables relationships relationships' := by
  intro id _
  generalize (orderedTables tables relationships).map Table.id = order
  have hperm := perm_freedBy (perm_dependencies hp (tables.map Table.id)) order id
  have hnodup := nodup_freedBy (dependencies (tables.map Table.id) relationships) order id
  have hone : ∀ b ∈ freedBy (dependencies (tables.map Table.id) relationships) order id,
      ∀ c ∈ freedBy (dependencies (tables.map Table.id) relationships) order id, b = c :=
    fun b hb c hc => h id b c (mem_dependencies.mp (mem_freedBy hb)) (mem_dependencies.mp (mem_freedBy hc))
  match hfreed : freedBy (dependencies (tables.map Table.id) relationships) order id with
  | [] =>
    rw [hfreed] at hperm
    exact hperm.nil_eq
  | [b] =>
    rw [hfreed] at hperm
    exact (List.perm_singleton.mp hperm.symm).symm
  | b :: c :: rest =>
    rw [hfreed] at hone hnodup
    have hbc := hone b (by simp) c (by simp)
    simp [hbc] at hnodup

end Tables

/-- Relationships drawn in another order leave the tables that depend on a circle as they are and place the others in
an order in which ties are resolved as the relationships are drawn. That is the same order exactly if every table frees
the same tables in the same order; so it is if the relationships from each table keep their order, and if no two tables
refer to one. -/
theorem tableOrder_ties {tables : List Table} (h : (tables.map Table.id).Nodup)
    {relationships relationships' : List Relationship} (hp : relationships.Perm relationships') :
    ((orderedTables tables relationships).Perm (orderedTables tables relationships') ∧
        circularTables tables relationships = circularTables tables relationships' ∧
        TiesDrawn tables relationships ∧ TiesDrawn tables relationships') ∧
      (tableOrder tables relationships = tableOrder tables relationships' ↔
        SameTies tables relationships relationships') ∧
      ((∀ id, (relationships.filter fun r => r.source.table == id) =
          relationships'.filter fun r => r.source.table == id) →
        tableOrder tables relationships = tableOrder tables relationships') ∧
      ((∀ a b c, Precedes tables relationships a b → Precedes tables relationships a c → b = c) →
        tableOrder tables relationships = tableOrder tables relationships') := by
  have hsame : tableOrder tables relationships = tableOrder tables relationships' ↔
      SameTies tables relationships relationships' := (tableOrder_eq_iff h hp).trans (orderedIds_eq_iff h hp)
  have hordered : (orderedTables tables relationships).Perm (orderedTables tables relationships') :=
    (perm_orderedIds h hp).filterMap _
  exact ⟨⟨hordered, circularTables_perm h hp, tiesDrawn h _, tiesDrawn h _⟩, hsame,
    fun hfilter => hsame.mpr (sameTies_of_filter hfilter hp), fun hsingle => hsame.mpr (sameTies_of_single hsingle hp)⟩

/-- Five tables: the fourth refers to the first, the third to the first two, and the last to itself. -/
def ladder : List Table :=
  [⟨"a", "a", {}, []⟩, ⟨"b", "b", {}, []⟩, ⟨"c", "c", {}, []⟩, ⟨"d", "d", {}, []⟩, ⟨"e", "e", {}, []⟩]

/-- The relationships between them, drawn table by table. -/
def ladderLinks : List Relationship :=
  [⟨"1", .oneToMany, ⟨"a", ""⟩, ⟨"d", ""⟩⟩, ⟨"2", .oneToMany, ⟨"a", ""⟩, ⟨"c", ""⟩⟩,
    ⟨"3", .oneToOne, ⟨"b", ""⟩, ⟨"c", ""⟩⟩, ⟨"4", .oneToMany, ⟨"e", ""⟩, ⟨"e", ""⟩⟩]

/-- The same in another order, which agrees with it on those from one table. -/
def ladderLinksMixed : List Relationship :=
  [⟨"4", .oneToMany, ⟨"e", ""⟩, ⟨"e", ""⟩⟩, ⟨"1", .oneToMany, ⟨"a", ""⟩, ⟨"d", ""⟩⟩,
    ⟨"3", .oneToOne, ⟨"b", ""⟩, ⟨"c", ""⟩⟩, ⟨"2", .oneToMany, ⟨"a", ""⟩, ⟨"c", ""⟩⟩]

theorem tableOrder_ties_ladder :
    (ladder.map Table.id).Nodup ∧ ladderLinks.Perm ladderLinksMixed ∧
      (∀ id, (ladderLinks.filter fun r => r.source.table == id) =
        ladderLinksMixed.filter fun r => r.source.table == id) ∧
      ((orderedTables ladder ladderLinks).Perm (orderedTables ladder ladderLinksMixed) ∧
        circularTables ladder ladderLinks = circularTables ladder ladderLinksMixed ∧
        TiesDrawn ladder ladderLinks ∧ TiesDrawn ladder ladderLinksMixed) ∧
      SameTies ladder ladderLinks ladderLinksMixed ∧
      tableOrder ladder ladderLinks = tableOrder ladder ladderLinksMixed ∧
      (tableOrder ladder ladderLinks).map Table.id = ["a", "b", "d", "c", "e"] := by
  have hn : (ladder.map Table.id).Nodup := by decide
  have hp : ladderLinks.Perm ladderLinksMixed := by decide
  have hfilter (id : String) : (ladderLinks.filter fun r => r.source.table == id) =
      ladderLinksMixed.filter fun r => r.source.table == id := by
    by_cases ha : "a" = id
    · subst ha
      decide
    by_cases hb : "b" = id
    · subst hb
      decide
    by_cases he : "e" = id
    · subst he
      decide
    simp [ladderLinks, ladderLinksMixed, ha, hb, he]
  obtain ⟨hparts, hiff, hsame, -⟩ := tableOrder_ties hn hp
  exact ⟨hn, hp, hfilter, hparts, hiff.mp (hsame hfilter), hsame hfilter, by decide +kernel⟩

/-- Three tables, two of which refer to the first. -/
def fork : List Table := [⟨"a", "a", {}, []⟩, ⟨"b", "b", {}, []⟩, ⟨"c", "c", {}, []⟩]

/-- The relationship to the third table, and that to the second. -/
def forkLinks : List Relationship :=
  [⟨"1", .oneToMany, ⟨"a", ""⟩, ⟨"c", ""⟩⟩, ⟨"2", .oneToMany, ⟨"a", ""⟩, ⟨"b", ""⟩⟩]

/-- The second and the third table change places with the relationships to them. -/
theorem not_tableOrder_perm_fork :
    (fork.map Table.id).Nodup ∧ forkLinks.Perm forkLinks.reverse ∧
      (tableOrder fork forkLinks).map Table.id = ["a", "c", "b"] ∧
      (tableOrder fork forkLinks.reverse).map Table.id = ["a", "b", "c"] ∧
      tableOrder fork forkLinks ≠ tableOrder fork forkLinks.reverse := by
  have hfirst : (tableOrder fork forkLinks).map Table.id = ["a", "c", "b"] := by decide +kernel
  have hsecond : (tableOrder fork forkLinks.reverse).map Table.id = ["a", "b", "c"] := by decide +kernel
  refine ⟨by decide, (List.reverse_perm forkLinks).symm, hfirst, hsecond, fun hsame => ?_⟩
  rw [hsame, hsecond] at hfirst
  exact absurd hfirst (by decide)

end Erd.Sql
