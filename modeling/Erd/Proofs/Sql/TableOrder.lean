import Erd.Proofs.Outline
import Erd.Sql.TableOrder
import Mathlib.Data.List.Count
import Mathlib.Data.List.Nodup
import Mathlib.Data.Set.Finite.List
import Mathlib.Order.WellFounded

/-!
# What the order of tables guarantees

The queue empties with an invariant: a count is the number of relationships into a table whose source has
not left the queue, and a table has joined the queue exactly when its count is zero. What has left the queue
at the end is therefore closed under taking sources, and the sources of a table left before it. A table that
never joins has a source that never joins, and since there are finitely many tables such a chain of sources
runs into a circle.

**Results.**
* `get_release`, `count_release`: what letting a table go does to the counts and to the queue.
* `Progress.step`, `Progress.drain`: the invariant, for one table and for the whole queue.
* `mem_orderedIds_iff`: a table is placed exactly if it does not depend on a circle.
* `tableOrder_exact`: the order of all tables.
-/
namespace Erd.Sql

/-! ## Counts -/

theorem OpenCounts.get_close (id k : String) (counts : OpenCounts) :
    (counts.close id).get k = if k = id then counts.get k - 1 else counts.get k := by
  induction counts with
  | nil => simp [close, get]
  | cons p counts ih =>
    obtain ⟨j, n⟩ := p
    by_cases hj : j = id
    · subst hj
      by_cases hk : j = k
      · simp [close, get, hk]
      · simp [close, get, hk, Ne.symm hk]
    · by_cases hk : j = k
      · subst hk
        simp [close, get, hj]
      · simp [close, get, hj, hk, ih]

/-- Every relationship closed takes one from the count of its target. -/
theorem get_release (counts : OpenCounts) (ids : List String) (k : String) :
    (release counts ids).1.get k = counts.get k - ids.count k := by
  induction ids generalizing counts with
  | nil => simp [release]
  | cons id ids ih =>
    rw [release, ih, OpenCounts.get_close, List.count_cons]
    by_cases hk : k = id
    · subst hk
      simp
      omega
    · simp [hk, Ne.symm hk]

/-- An id is freed once, when the relationships closed are all that were open. -/
theorem count_release (counts : OpenCounts) (ids : List String) (k : String) :
    (release counts ids).2.count k = if 0 < counts.get k ∧ counts.get k ≤ ids.count k then 1 else 0 := by
  induction ids generalizing counts with
  | nil => simp [release]; omega
  | cons id ids ih =>
    have hrest := ih (counts.close id)
    rw [OpenCounts.get_close] at hrest
    simp only [release]
    by_cases hk : k = id
    · subst hk
      rw [if_pos rfl] at hrest
      rw [List.count_cons_self]
      by_cases h1 : counts.get k = 1
      · rw [if_pos h1, List.count_cons_self, hrest, if_neg (by omega), if_pos (by omega)]
      · rw [if_neg h1, hrest]
        exact if_congr (by omega) rfl rfl
    · rw [if_neg hk] at hrest
      rw [List.count_cons_of_ne (Ne.symm hk), ← hrest]
      split
      · rw [List.count_cons_of_ne (Ne.symm hk)]
      · rfl

theorem mem_release {counts : OpenCounts} {ids : List String} {k : String} :
    k ∈ (release counts ids).2 ↔ 0 < counts.get k ∧ counts.get k ≤ ids.count k := by
  rw [← List.count_pos_iff, count_release]
  split <;> simp_all

theorem nodup_release (counts : OpenCounts) (ids : List String) : (release counts ids).2.Nodup := by
  refine List.nodup_iff_count_le_one.mpr fun k => ?_
  rw [count_release]
  split <;> omega

/-! ## Open relationships -/

/-- How many relationships lead into an id from one that is not among those done. -/
def openInto (edges : List (String × String)) (done : List String) (k : String) : Nat :=
  edges.countP fun e => e.2 == k && !done.contains e.1

theorem openInto_eq_zero {edges : List (String × String)} {done : List String} {k : String} :
    openInto edges done k = 0 ↔ ∀ e ∈ edges, e.2 = k → e.1 ∈ done := by
  rw [openInto, List.countP_eq_zero]
  refine forall₂_congr fun e _ => ?_
  simp

/-- One more id done closes the relationships from it, once each. -/
theorem openInto_concat (edges : List (String × String)) {done : List String} {id : String}
    (h : id ∉ done) (k : String) :
    openInto edges done k = openInto edges (done ++ [id]) k + (dependents edges id).count k := by
  induction edges with
  | nil => rfl
  | cons e edges ih =>
    obtain ⟨a, b⟩ := e
    simp only [openInto, dependents, List.countP_cons, List.filterMap_cons] at ih ⊢
    by_cases ha : a = id
    · subst ha
      by_cases hb : b = k
      · subst hb
        simp [h] at ih ⊢
        omega
      · simp [h, hb] at ih ⊢
        omega
    · simp [ha] at ih ⊢
      omega

theorem mem_dependents {edges : List (String × String)} {id k : String} :
    k ∈ dependents edges id ↔ (id, k) ∈ edges := by
  simp only [dependents, List.mem_filterMap]
  constructor
  · rintro ⟨⟨a, b⟩, he, h⟩
    split at h
    · next ha =>
      cases h
      cases ha
      exact he
    · cases h
  · intro h
    exact ⟨(id, k), h, if_pos rfl⟩

theorem get_openCounts {ids : List String} (edges : List (String × String)) {k : String} (hk : k ∈ ids) :
    (openCounts ids edges).get k = openInto edges [] k := by
  have hk' : k ∈ ids.eraseDups := List.mem_eraseDups.mpr hk
  have hz : openInto edges [] k = edges.countP fun e => e.2 == k := by
    simp [openInto]
  rw [openCounts, hz]
  generalize ids.eraseDups = js at hk'
  induction js with
  | nil => cases hk'
  | cons j js ih =>
    rw [List.map_cons, OpenCounts.get]
    split
    · next hj => rw [hj]
    · next hj => exact ih ((List.mem_cons.mp hk').resolve_left (Ne.symm hj))

/-! ## The queue -/

/-- Between two tables, with these ids done and these in the queue: the counts are the open relationships,
no id is met twice, an id has joined when nothing into it is open, and an id is done only after the sources
of the relationships into it. -/
structure Progress (ids : List String) (edges : List (String × String)) (done queue : List String)
    (counts : OpenCounts) : Prop where
  counted : ∀ k ∈ ids, counts.get k = openInto edges done k
  nodup : (done ++ queue).Nodup
  joined : ∀ k, k ∈ done ++ queue ↔ k ∈ ids ∧ counts.get k = 0
  ordered : ∀ e ∈ edges, e.2 ∈ done → done.idxOf e.1 < done.idxOf e.2

section Queue

variable {ids : List String} {edges : List (String × String)}

theorem Progress.start (hids : ids.Nodup) :
    Progress ids edges [] (ids.filter fun id => (openCounts ids edges).get id == 0)
      (openCounts ids edges) where
  counted k hk := get_openCounts edges hk
  nodup := by simpa using hids.filter _
  joined k := by simp
  ordered e _ h := by cases h

variable {done queue : List String} {counts : OpenCounts}

/-- The sources of what has joined the queue are done. -/
theorem Progress.source_mem (h : Progress ids edges done queue counts) {k : String}
    (hk : k ∈ done ++ queue) : ∀ e ∈ edges, e.2 = k → e.1 ∈ done := by
  obtain ⟨hki, hz⟩ := (h.joined k).mp hk
  rw [h.counted k hki] at hz
  exact openInto_eq_zero.mp hz

/-- One table leaves the queue. -/
theorem Progress.step (hedges : ∀ e ∈ edges, e.2 ∈ ids) {id : String}
    (h : Progress ids edges done (id :: queue) counts) :
    Progress ids edges (done ++ [id]) (queue ++ (release counts (dependents edges id)).2)
      (release counts (dependents edges id)).1 := by
  have hnd := h.nodup
  have hid : id ∉ done := fun hm => List.disjoint_of_nodup_append hnd hm List.mem_cons_self
  have hlist : done ++ [id] ++ (queue ++ (release counts (dependents edges id)).2) =
      (done ++ id :: queue) ++ (release counts (dependents edges id)).2 := by simp
  have hdep : ∀ k ∈ dependents edges id, k ∈ ids := fun k hk => hedges _ (mem_dependents.mp hk)
  refine ⟨?_, ?_, ?_, ?_⟩
  · intro k hk
    rw [get_release, h.counted k hk, openInto_concat edges hid k]
    omega
  · rw [hlist]
    refine hnd.append (nodup_release _ _) fun k hk hr => ?_
    have := ((h.joined k).mp hk).2
    have := (mem_release.mp hr).1
    omega
  · intro k
    rw [hlist, List.mem_append, h.joined k, mem_release, get_release]
    constructor
    · rintro (⟨hk, hz⟩ | ⟨hp, hle⟩)
      · exact ⟨hk, by omega⟩
      · refine ⟨hdep k (List.count_pos_iff.mp (by omega)), by omega⟩
    · rintro ⟨hk, hz⟩
      by_cases h0 : counts.get k = 0
      · exact .inl ⟨hk, h0⟩
      · exact .inr ⟨by omega, by omega⟩
  · intro e he hm
    rcases List.mem_append.mp hm with hm | hm
    · have hlt := h.ordered e he hm
      have hs : e.1 ∈ done := List.idxOf_lt_length_iff.mp (hlt.trans (List.idxOf_lt_length_of_mem hm))
      rwa [List.idxOf_append_of_mem hs, List.idxOf_append_of_mem hm]
    · have he2 : e.2 = id := List.mem_singleton.mp hm
      have hs : e.1 ∈ done := h.source_mem (k := id) (by simp) e he he2
      have hid' : e.2 ∉ done := by rw [he2]; exact hid
      rw [List.idxOf_append_of_mem hs, List.idxOf_append_of_notMem hid']
      have := List.idxOf_lt_length_of_mem hs
      omega

/-- The queue runs empty. -/
theorem Progress.drain (hedges : ∀ e ∈ edges, e.2 ∈ ids) (h : Progress ids edges done queue counts) :
    ∃ counts', Progress ids edges (done ++ Sql.drain edges queue counts) [] counts' := by
  fun_induction Sql.drain edges queue counts generalizing done with
  | case1 counts => exact ⟨counts, by simpa using h⟩
  | case2 counts id queue freed hw =>
    rename_i ih
    obtain ⟨counts', hc⟩ := ih (h.step hedges)
    exact ⟨counts', by simpa using hc⟩

/-- What leaves the queue was in it from the start or depends on something. -/
theorem mem_of_mem_drain {k : String} (hk : k ∈ drain edges queue counts) :
    k ∈ queue ∨ ∃ id, (id, k) ∈ edges := by
  fun_induction Sql.drain edges queue counts with
  | case1 counts => cases hk
  | case2 counts id queue freed hw =>
    rename_i ih
    rcases List.mem_cons.mp hk with rfl | hk
    · exact .inl List.mem_cons_self
    · rcases ih hk with hq | he
      · rcases List.mem_append.mp hq with hq | hq
        · exact .inl (List.mem_cons_of_mem id hq)
        · obtain ⟨hpos, hle⟩ := mem_release.mp hq
          have hdep : k ∈ dependents edges id := List.count_pos_iff.mp (by omega)
          exact .inr ⟨id, mem_dependents.mp hdep⟩
      · exact .inr he

end Queue

/-! ## Circles -/

section Circles

open Relation

variable {α : Type} {R : α → α → Prop}

/-- Reachable, in any number of steps, from something that reaches itself in at least one. -/
def FromCircle (R : α → α → Prop) (a : α) : Prop := ∃ c, TransGen R c c ∧ ReflTransGen R c a

/-- What contains everything whose sources it contains, within a finite list that contains all sources,
contains all that no circle reaches. -/
theorem mem_of_not_fromCircle {ids out : List α} (hR : ∀ {a b}, R a b → a ∈ ids)
    (hout : ∀ b ∈ ids, (∀ a, R a b → a ∈ out) → b ∈ out) {x : α} (hx : x ∈ ids)
    (hno : ¬ FromCircle R x) : x ∈ out := by
  let Above := { y : α // y ∈ ids ∧ ReflTransGen R y x }
  have hfin : Finite Above := (List.finite_toSet ids).subset (fun y hy => hy.1) |>.to_subtype
  let S : Above → Above → Prop := fun y z => TransGen R y.1 z.1
  have hirrefl : Std.Irrefl S := ⟨fun y hy => hno ⟨y.1, hy, y.2.2⟩⟩
  have htrans : IsTrans Above S := ⟨fun _ _ _ => TransGen.trans⟩
  have hwf : WellFounded S := Finite.wellFounded_of_trans_of_irrefl S
  have hall : ∀ y : Above, y.1 ∈ out := by
    intro y
    induction y using hwf.induction with
    | h y ih =>
      refine hout y.1 y.2.1 fun a ha => ?_
      exact ih ⟨a, hR ha, .head ha y.2.2⟩ (.single ha)
  exact hall ⟨x, hx, .refl⟩

/-- Nothing that a circle reaches is in a list that holds the sources of its elements before them. -/
theorem not_fromCircle_of_mem [BEq α] {out : List α}
    (hsrc : ∀ {a b}, R a b → b ∈ out → a ∈ out ∧ out.idxOf a < out.idxOf b) {x : α} (hx : x ∈ out) :
    ¬ FromCircle R x := by
  rintro ⟨c, hcc, hcx⟩
  have hc : c ∈ out := by
    induction hcx with
    | refl => exact hx
    | tail _ h ih => exact ih (hsrc h hx).1
  have hlt : ∀ {a b}, TransGen R a b → b ∈ out → a ∈ out ∧ out.idxOf a < out.idxOf b := by
    intro a b hab
    induction hab with
    | single h => exact hsrc h
    | tail _ h ih =>
      intro hb
      obtain ⟨hm, hl⟩ := hsrc h hb
      obtain ⟨hm', hl'⟩ := ih hm
      exact ⟨hm', hl'.trans hl⟩
  exact Nat.lt_irrefl _ (hlt hcc hc).2

end Circles

/-! ## Tables -/

/-- A relationship that is not between many and many leads from one table to another, and both are there. -/
def Precedes (tables : List Table) (relationships : List Relationship) (a b : String) : Prop :=
  ∃ r ∈ relationships, r.cardinality ≠ .manyToMany ∧ r.source.table = a ∧ r.target.table = b ∧
    a ∈ tables.map Table.id ∧ b ∈ tables.map Table.id

/-- The table lies on a circle of relationships or can be reached from one. -/
def DependsOnCircle (tables : List Table) (relationships : List Relationship) (t : Table) : Prop :=
  FromCircle (Precedes tables relationships) t.id

section Tables

variable {tables : List Table} {relationships : List Relationship}

theorem mem_dependencies {a b : String} :
    (a, b) ∈ dependencies (tables.map Table.id) relationships ↔ Precedes tables relationships a b := by
  simp only [dependencies, List.mem_filterMap, Precedes]
  refine exists_congr fun r => and_congr_right fun _ => ?_
  constructor
  · intro h
    split at h
    · next hc =>
      cases h
      simp only [Bool.and_eq_true, decide_eq_true_eq, List.contains_iff_mem] at hc
      exact ⟨hc.1.1, rfl, rfl, hc.1.2, hc.2⟩
    · cases h
  · rintro ⟨hk, rfl, rfl, ha, hb⟩
    rw [if_pos]
    simp only [Bool.and_eq_true, decide_eq_true_eq, List.contains_iff_mem]
    exact ⟨⟨hk, ha⟩, hb⟩

/-- Only tables that are there depend on others. -/
theorem target_mem_of_dependencies :
    ∀ e ∈ dependencies (tables.map Table.id) relationships, e.2 ∈ tables.map Table.id := by
  rintro ⟨a, b⟩ he
  obtain ⟨r, -, -, -, -, -, hb⟩ := mem_dependencies.mp he
  exact hb

/-- Only ids of tables are placed, whether or not they repeat. -/
theorem mem_of_mem_orderedIds {id : String} (hid : id ∈ orderedIds (tables.map Table.id) relationships) :
    id ∈ tables.map Table.id := by
  rcases mem_of_mem_drain hid with hq | ⟨a, ha⟩
  · exact (List.mem_filter.mp hq).1
  · exact target_mem_of_dependencies _ ha

section Ids

variable (relationships) (h : (tables.map Table.id).Nodup)

include h

/-- The queue of all tables has run empty. -/
theorem progress_orderedIds :
    ∃ counts, Progress (tables.map Table.id) (dependencies (tables.map Table.id) relationships)
      (orderedIds (tables.map Table.id) relationships) [] counts := by
  obtain ⟨counts, hp⟩ := (Progress.start h).drain target_mem_of_dependencies
  exact ⟨counts, hp⟩

theorem nodup_orderedIds : (orderedIds (tables.map Table.id) relationships).Nodup := by
  obtain ⟨counts, hp⟩ := progress_orderedIds relationships h
  simpa using hp.nodup

/-- What precedes a placed table is placed before it. -/
theorem orderedIds_source {a b : String} (hab : Precedes tables relationships a b)
    (hb : b ∈ orderedIds (tables.map Table.id) relationships) :
    a ∈ orderedIds (tables.map Table.id) relationships ∧
      (orderedIds (tables.map Table.id) relationships).idxOf a <
        (orderedIds (tables.map Table.id) relationships).idxOf b := by
  obtain ⟨counts, hp⟩ := progress_orderedIds relationships h
  have he := mem_dependencies.mpr hab
  exact ⟨hp.source_mem (List.mem_append_left [] hb) _ he rfl, hp.ordered _ he hb⟩

/-- A table all of whose sources are placed is placed. -/
theorem mem_orderedIds_of_sources {b : String} (hb : b ∈ tables.map Table.id)
    (hsrc : ∀ a, Precedes tables relationships a b → a ∈ orderedIds (tables.map Table.id) relationships) :
    b ∈ orderedIds (tables.map Table.id) relationships := by
  obtain ⟨counts, hp⟩ := progress_orderedIds relationships h
  have hz : counts.get b = 0 := by
    rw [hp.counted b hb, openInto_eq_zero]
    rintro ⟨a, c⟩ he rfl
    exact hsrc a (mem_dependencies.mp he)
  have := (hp.joined b).mpr ⟨hb, hz⟩
  simpa using this

/-- A table is placed exactly if it does not depend on a circle. -/
theorem mem_orderedIds_iff {t : Table} (ht : t ∈ tables) :
    t.id ∈ orderedIds (tables.map Table.id) relationships ↔ ¬ DependsOnCircle tables relationships t := by
  constructor
  · intro hm
    exact not_fromCircle_of_mem (fun hab hb => orderedIds_source relationships h hab hb) hm
  · intro hno
    have hR : ∀ {a b}, Precedes tables relationships a b → a ∈ tables.map Table.id := by
      rintro a b ⟨r, -, -, -, -, ha, -⟩
      exact ha
    exact mem_of_not_fromCircle hR (fun b hb hsrc => mem_orderedIds_of_sources relationships h hb hsrc)
      (List.mem_map_of_mem ht) hno

theorem lastTable?_of_mem {t : Table} (ht : t ∈ tables) : lastTable? tables t.id = some t := by
  refine find?_of_unique (List.mem_reverse.mpr ht) (by simp) fun u hu hk => ?_
  exact List.inj_on_of_nodup_map h (List.mem_reverse.mp hu) ht (by simpa using hk)

theorem lastTable?_of_placed {id : String} (hid : id ∈ orderedIds (tables.map Table.id) relationships) :
    ∃ t ∈ tables, lastTable? tables id = some t ∧ t.id = id := by
  obtain ⟨t, ht, rfl⟩ := List.mem_map.mp (mem_of_mem_orderedIds hid)
  exact ⟨t, ht, lastTable?_of_mem h ht, rfl⟩

theorem ids_orderedTables :
    (orderedTables tables relationships).map Table.id = orderedIds (tables.map Table.id) relationships := by
  have := map_filterMap_of_forall (g := Table.id) (k := id) fun i hi =>
    (lastTable?_of_placed relationships h hi).imp fun t ht => ht.2
  rw [List.map_id] at this
  exact this

theorem mem_orderedTables {t : Table} :
    t ∈ orderedTables tables relationships ↔
      t ∈ tables ∧ t.id ∈ orderedIds (tables.map Table.id) relationships := by
  rw [orderedTables, List.mem_filterMap]
  constructor
  · rintro ⟨id, hid, ht⟩
    obtain ⟨u, hu, hl, rfl⟩ := lastTable?_of_placed relationships h hid
    rw [hl] at ht
    cases ht
    exact ⟨hu, hid⟩
  · rintro ⟨ht, hid⟩
    exact ⟨t.id, hid, lastTable?_of_mem h ht⟩

omit h in
theorem mem_circularTables {t : Table} :
    t ∈ circularTables tables relationships ↔
      t ∈ tables ∧ t.id ∉ orderedIds (tables.map Table.id) relationships := by
  simp [circularTables]

/-- Every table is written once. -/
theorem perm_tableOrder : (tableOrder tables relationships).Perm tables := by
  have hids : ((tableOrder tables relationships).map Table.id).Nodup := by
    rw [tableOrder, List.map_append, ids_orderedTables relationships h]
    refine (nodup_orderedIds relationships h).append ?_ fun id hp hc => ?_
    · exact (List.filter_sublist.map Table.id).nodup h
    · obtain ⟨t, ht, rfl⟩ := List.mem_map.mp hc
      exact ((mem_circularTables relationships).mp ht).2 hp
  refine (List.perm_ext_iff_of_nodup hids.of_map h.of_map).mpr fun t => ?_
  rw [tableOrder, List.mem_append, mem_orderedTables relationships h, mem_circularTables]
  constructor
  · rintro (⟨ht, -⟩ | ⟨ht, -⟩) <;> exact ht
  · intro ht
    by_cases hp : t.id ∈ orderedIds (tables.map Table.id) relationships
    · exact .inl ⟨ht, hp⟩
    · exact .inr ⟨ht, hp⟩

/-- A place in the order is a place among the ids unless the table depends on a circle. -/
theorem index_tableOrder {i : Nat} {t : Table} (hi : (tableOrder tables relationships)[i]? = some t)
    (hno : ¬ DependsOnCircle tables relationships t) :
    t.id ∈ orderedIds (tables.map Table.id) relationships ∧
      (orderedIds (tables.map Table.id) relationships).idxOf t.id = i := by
  have ht : t ∈ tables := (perm_tableOrder relationships h).mem_iff.mp (List.mem_of_getElem? hi)
  have hp := (mem_orderedIds_iff relationships h ht).mpr hno
  have hlen : i < (orderedTables tables relationships).length := by
    by_contra hge
    rw [tableOrder, List.getElem?_append_right (by omega)] at hi
    exact ((mem_circularTables relationships).mp (List.mem_of_getElem? hi)).2 hp
  rw [tableOrder, List.getElem?_append_left hlen] at hi
  have hget : (orderedIds (tables.map Table.id) relationships)[i]? = some t.id := by
    rw [← ids_orderedTables relationships h, List.getElem?_map, hi, Option.map_some]
  obtain ⟨hlt, he⟩ := List.getElem?_eq_some_iff.mp hget
  refine ⟨hp, ?_⟩
  rw [← he, (nodup_orderedIds relationships h).idxOf_getElem]

end Ids

/-- The order of all tables. It is a permutation of them and has two parts. The second is the tables that
depend on a circle, in their given order, and a table of the first comes after all that precede it. -/
theorem tableOrder_exact (h : (tables.map Table.id).Nodup) (relationships : List Relationship) :
    tableOrder tables relationships =
        orderedTables tables relationships ++ circularTables tables relationships ∧
      (tableOrder tables relationships).Perm tables ∧
      (circularTables tables relationships).Sublist tables ∧
      (∀ t, t ∈ circularTables tables relationships ↔
        t ∈ tables ∧ DependsOnCircle tables relationships t) ∧
      ∀ (i j : Nat) (s t : Table), (tableOrder tables relationships)[i]? = some s →
        (tableOrder tables relationships)[j]? = some t → Precedes tables relationships s.id t.id →
        ¬ DependsOnCircle tables relationships t → i < j := by
  refine ⟨rfl, perm_tableOrder relationships h, List.filter_sublist, fun t => ?_, ?_⟩
  · rw [mem_circularTables]
    refine and_congr_right fun ht => ?_
    rw [mem_orderedIds_iff relationships h ht, not_not]
  · intro i j s t hs ht hst hno
    have hsno : ¬ DependsOnCircle tables relationships s := fun ⟨c, hcc, hcs⟩ => hno ⟨c, hcc, hcs.tail hst⟩
    obtain ⟨-, hi⟩ := index_tableOrder relationships h hs hsno
    obtain ⟨hm, hj⟩ := index_tableOrder relationships h ht hno
    have := (orderedIds_source relationships h hst hm).2
    omega

end Tables

/-- Three tables in a row, the second of which also refers to itself. -/
def chain : List Table := [⟨"a", "a", {}, []⟩, ⟨"b", "b", {}, []⟩, ⟨"c", "c", {}, []⟩]

/-- The relationships between them: one is given twice, one leads nowhere. -/
def chainLinks : List Relationship :=
  [⟨"1", .oneToMany, ⟨"a", ""⟩, ⟨"b", ""⟩⟩, ⟨"2", .oneToMany, ⟨"a", ""⟩, ⟨"b", ""⟩⟩,
    ⟨"3", .oneToOne, ⟨"b", ""⟩, ⟨"b", ""⟩⟩, ⟨"4", .oneToMany, ⟨"b", ""⟩, ⟨"c", ""⟩⟩,
    ⟨"5", .oneToMany, ⟨"x", ""⟩, ⟨"a", ""⟩⟩]

theorem tableOrder_chain :
    (chain.map Table.id).Nodup ∧
      tableOrder chain chainLinks = orderedTables chain chainLinks ++ circularTables chain chainLinks ∧
      (tableOrder chain chainLinks).Perm chain ∧ (circularTables chain chainLinks).Sublist chain ∧
      (∀ t, t ∈ circularTables chain chainLinks ↔ t ∈ chain ∧ DependsOnCircle chain chainLinks t) ∧
      ∀ (i j : Nat) (s t : Table), (tableOrder chain chainLinks)[i]? = some s →
        (tableOrder chain chainLinks)[j]? = some t → Precedes chain chainLinks s.id t.id →
        ¬ DependsOnCircle chain chainLinks t → i < j :=
  ⟨by decide, tableOrder_exact (by decide) chainLinks⟩

end Erd.Sql
