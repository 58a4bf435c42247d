import Erd.Proofs.Sql.Ties

/-!
# Ordering tables that are in order

The order of tables looks at the list of tables in three places: for the ids that are there, for the order of those
that no relationship leads into, and for the order of those that depend on a circle. Two lists that agree in the first
two have one run of the queue. The order of tables agrees in all three with the list that it is made of: those that
nothing leads into stand at its front as they stood in the list, something leads into all that a table frees, and those
that depend on a circle keep their order at its end. So ordering once more changes nothing.

**Results.**
* `orderedIds_congr`: the queue depends on the tables only by their ids and by those that it starts with.
* `sources_tableOrder`: the queue of the ordered tables starts as that of the tables.
* `tableOrder_tableOrder`: tables that are in order stay as they are.
-/
namespace Erd.Sql

/-- The ids that no relationship leads into, with which the queue starts. -/
def sources (edges : List (String × String)) (ids : List String) : List String :=
  ids.filter fun id => edges.all fun e => e.2 != id

theorem sources_append (edges : List (String × String)) (ids more : List String) :
    sources edges (ids ++ more) = sources edges ids ++ sources edges more := List.filter_append ..

theorem sources_eq_nil {edges : List (String × String)} {ids : List String} (h : ∀ id ∈ ids, ∃ a, (a, id) ∈ edges) :
    sources edges ids = [] := by
  refine List.filter_eq_nil_iff.mpr fun id hid hnone => ?_
  obtain ⟨a, ha⟩ := h id hid
  have := List.all_eq_true.mp hnone _ ha
  simp at this

theorem sources_sources (edges : List (String × String)) (ids : List String) :
    sources edges (sources edges ids) = sources edges ids := by
  rw [sources, sources, List.filter_filter]
  simp only [Bool.and_self]

/-- What a table frees has a relationship leading into it. -/
theorem sources_freed (edges : List (String × String)) (order ids : List String) :
    sources edges (ids.flatMap (freedBy edges order)) = [] := by
  refine sources_eq_nil fun k hk => ?_
  obtain ⟨id, -, hid⟩ := List.mem_flatMap.mp hk
  exact ⟨id, mem_freedBy hid⟩

/-! ## The queue -/

theorem dependencies_congr {ids ids' : List String} (h : ∀ id, id ∈ ids' ↔ id ∈ ids)
    (relationships : List Relationship) : dependencies ids' relationships = dependencies ids relationships := by
  have hcontains (id : String) : ids'.contains id = ids.contains id := by
    rw [Bool.eq_iff_iff, List.contains_iff_mem, List.contains_iff_mem, h]
  simp only [dependencies, hcontains]

/-- A state of the queue does not tell in which order the ids were given. -/
theorem Progress.congr_ids {ids ids' : List String} (h : ∀ id, id ∈ ids' ↔ id ∈ ids) {edges : List (String × String)}
    {done queue : List String} {counts : OpenCounts} (hp : Progress ids' edges done queue counts) :
    Progress ids edges done queue counts where
  counted k hk := hp.counted k ((h k).mpr hk)
  nodup := hp.nodup
  joined k := by rw [hp.joined, h]
  ordered := hp.ordered

section Tables

variable {tables tables' : List Table} {relationships : List Relationship}

/-- Tables in another order give the same queue if it starts with the same ids. -/
theorem orderedIds_congr (hn : (tables.map Table.id).Nodup) (hp : tables'.Perm tables)
    (hs : sources (dependencies (tables.map Table.id) relationships) (tables'.map Table.id) =
      sources (dependencies (tables.map Table.id) relationships) (tables.map Table.id)) :
    orderedIds (tables'.map Table.id) relationships = orderedIds (tables.map Table.id) relationships := by
  have hids (id : String) : id ∈ tables'.map Table.id ↔ id ∈ tables.map Table.id := (hp.map Table.id).mem_iff
  have hn' : (tables'.map Table.id).Nodup := (hp.map Table.id).nodup_iff.mpr hn
  have hstart' := @Progress.start _ (dependencies (tables.map Table.id) relationships) hn'
  have hstart := @Progress.start _ (dependencies (tables.map Table.id) relationships) hn
  rw [orderedIds, orderedIds, dependencies_congr hids]
  -- both queues start with the sources, and the counts beside them are counts of the same relationships
  rw [filter_openCounts, ← sources, hs] at hstart' ⊢
  rw [filter_openCounts, ← sources] at hstart ⊢
  exact (hstart'.congr_ids hids).drain_congr target_mem_of_dependencies target_mem_of_dependencies hstart fun _ _ => rfl

section Ordered

variable (h : (tables.map Table.id).Nodup) (relationships)

include h

theorem sources_orderedTables :
    sources (dependencies (tables.map Table.id) relationships) ((orderedTables tables relationships).map Table.id) =
      sources (dependencies (tables.map Table.id) relationships) (tables.map Table.id) := by
  have hdrawn := tiesDrawn h relationships
  rw [TiesDrawn, ← sources] at hdrawn
  refine (congrArg (sources _) hdrawn).trans ?_
  rw [sources_append, sources_sources, sources_freed, List.append_nil]

/-- A table that depends on a circle has a relationship leading into it. -/
theorem sources_circularTables :
    sources (dependencies (tables.map Table.id) relationships) ((circularTables tables relationships).map Table.id) =
      [] := by
  refine sources_eq_nil fun k hk => ?_
  obtain ⟨t, ht, rfl⟩ := List.mem_map.mp hk
  obtain ⟨hmem, hout⟩ := (mem_circularTables relationships).mp ht
  by_contra hnone
  exact hout (mem_orderedIds_of_sources relationships h (List.mem_map_of_mem hmem)
    fun a ha => absurd ⟨a, mem_dependencies.mpr ha⟩ hnone)

theorem sources_tableOrder :
    sources (dependencies (tables.map Table.id) relationships) ((tableOrder tables relationships).map Table.id) =
      sources (dependencies (tables.map Table.id) relationships) (tables.map Table.id) := by
  rw [tableOrder, List.map_append, sources_append, sources_orderedTables relationships h,
    sources_circularTables relationships h, List.append_nil]

/-! ## The order -/

theorem orderedIds_tableOrder :
    orderedIds ((tableOrder tables relationships).map Table.id) relationships =
      orderedIds (tables.map Table.id) relationships :=
  orderedIds_congr h (perm_tableOrder relationships h) (sources_tableOrder relationships h)

theorem orderedTables_tableOrder :
    orderedTables (tableOrder tables relationships) relationships = orderedTables tables relationships := by
  have hp := perm_tableOrder relationships h
  rw [orderedTables, orderedTables, orderedIds_tableOrder relationships h]
  refine List.filterMap_congr fun id hid => ?_
  obtain ⟨t, ht, hlast, rfl⟩ := lastTable?_of_placed relationships h hid
  rw [hlast, lastTable?_of_mem ((hp.map Table.id).nodup_iff.mpr h) (hp.mem_iff.mpr ht)]

theorem circularTables_tableOrder :
    circularTables (tableOrder tables relationships) relationships = circularTables tables relationships := by
  have hplaced : (orderedTables tables relationships).filter
      (fun t => !(orderedIds (tables.map Table.id) relationships).contains t.id) = [] := by
    refine List.filter_eq_nil_iff.mpr fun t ht => ?_
    simpa using ((mem_orderedTables relationships h).mp ht).2
  rw [circularTables, orderedIds_tableOrder relationships h, tableOrder, List.filter_append, hplaced, List.nil_append,
    circularTables, List.filter_filter]
  simp only [Bool.and_self]

end Ordered

/-- Tables that are in order stay as they are, those that depend on a circle included. -/
theorem tableOrder_tableOrder (h : (tables.map Table.id).Nodup) (relationships : List Relationship) :
    tableOrder (tableOrder tables relationships) relationships = tableOrder tables relationships := by
  rw [tableOrder.eq_def (tableOrder tables relationships), orderedTables_tableOrder relationships h,
    circularTables_tableOrder relationships h, tableOrder]

end Tables

/-- Two tables on a circle, one that refers to it, and one that stands before the table it refers to. -/
def roundabout : List Table :=
  [⟨"a", "a", {}, []⟩, ⟨"e", "e", {}, []⟩, ⟨"b", "b", {}, []⟩, ⟨"c", "c", {}, []⟩, ⟨"d", "d", {}, []⟩]

/-- The relationships between them. -/
def roundaboutLinks : List Relationship :=
  [⟨"1", .oneToMany, ⟨"a", ""⟩, ⟨"b", ""⟩⟩, ⟨"2", .oneToOne, ⟨"b", ""⟩, ⟨"a", ""⟩⟩,
    ⟨"3", .oneToMany, ⟨"b", ""⟩, ⟨"c", ""⟩⟩, ⟨"4", .oneToMany, ⟨"d", ""⟩, ⟨"e", ""⟩⟩]

theorem tableOrder_tableOrder_roundabout : (roundabout.map Table.id).Nodup ∧
    tableOrder (tableOrder roundabout roundaboutLinks) roundaboutLinks = tableOrder roundabout roundaboutLinks ∧
      (tableOrder roundabout roundaboutLinks).map Table.id = ["d", "e", "a", "b", "c"] := by
  have h : (roundabout.map Table.id).Nodup := by decide
  exact ⟨h, tableOrder_tableOrder h roundaboutLinks, by decide +kernel⟩

end Erd.Sql
