import Erd.Diagram.Basic

/-!
# The order of tables in a script

Tables are written so that a referenced table comes before the tables that refer to it. The order is built
from a queue: it starts with the tables that refer to none, in their given order, and a table joins it when
the last of the tables it refers to has left it. Tables that never join, because they depend on a circle,
come last in their given order.

Only relationships between tables that are there count, and those between many and many do not.

**Results.**
* `weight_release`: letting a table go adds no more to the queue than it takes from the open requirements,
  so the queue runs empty.
-/
namespace Erd.Sql

/-- For each table id how many relationships into it are still open. -/
abbrev OpenCounts := List (String × Nat)

namespace OpenCounts

/-- The sum of all counts. -/
def total : OpenCounts → Nat
  | [] => 0
  | (_, n) :: counts => n + total counts

/-- The count of an id. -/
def get (id : String) : OpenCounts → Nat
  | [] => 0
  | (k, n) :: counts => if k = id then n else get id counts

/-- One relationship into `id` closed. -/
def close (id : String) : OpenCounts → OpenCounts
  | [] => []
  | (k, n) :: counts => if k = id then (k, n - 1) :: counts else (k, n) :: close id counts

theorem total_close (id : String) (counts : OpenCounts) :
    (counts.close id).total = counts.total - (if counts.get id = 0 then 0 else 1) := by
  induction counts with
  | nil => rfl
  | cons p counts ih =>
    obtain ⟨k, n⟩ := p
    by_cases h : k = id
    · simp only [close, get, total, if_pos h]
      split <;> omega
    · simp only [close, get, total, if_neg h, ih]
      split
      · omega
      · next hg =>
        have : 0 < total counts := by
          clear ih
          induction counts with
          | nil => simp [get] at hg
          | cons q counts ihc =>
            simp only [get] at hg
            simp only [total]
            split at hg
            · omega
            · have := ihc hg
              omega
        omega

end OpenCounts

/-- Closes one relationship into each of the ids in turn: the counts after that, and the ids whose last
open relationship it was. -/
def release (counts : OpenCounts) : List String → OpenCounts × List String
  | [] => (counts, [])
  | id :: ids =>
    let rest := release (counts.close id) ids
    (rest.1, if counts.get id = 1 then id :: rest.2 else rest.2)

theorem weight_release (counts : OpenCounts) (ids : List String) :
    (release counts ids).2.length + (release counts ids).1.total ≤ counts.total := by
  induction ids generalizing counts with
  | nil => simp [release]
  | cons id ids ih =>
    have h := ih (counts.close id)
    have hc := OpenCounts.total_close id counts
    simp only [release]
    split
    · next h1 =>
      have hpos : 0 < counts.total := by
        have : counts.get id ≤ counts.total := by
          clear h hc h1 ih
          induction counts with
          | nil => simp [OpenCounts.get]
          | cons p counts ihc =>
            obtain ⟨k, n⟩ := p
            simp only [OpenCounts.get, OpenCounts.total]
            split <;> omega
        omega
      rw [h1, if_neg (by decide)] at hc
      simp only [List.length_cons]
      omega
    · split at hc <;> omega

/-- The relationships that order tables, each as the pair of ids from the referenced table to the
referring one. -/
def dependencies (ids : List String) (relationships : List Relationship) : List (String × String) :=
  relationships.filterMap fun r =>
    if r.cardinality ≠ .manyToMany && ids.contains r.source.table && ids.contains r.target.table
    then some (r.source.table, r.target.table) else none

/-- The ids that depend on an id, once for each relationship. -/
def dependents (edges : List (String × String)) (id : String) : List String :=
  edges.filterMap fun e => if e.1 = id then some e.2 else none

/-- How many relationships lead into each id. -/
def openCounts (ids : List String) (edges : List (String × String)) : OpenCounts :=
  ids.eraseDups.map fun id => (id, edges.countP fun e => e.2 == id)

/-- The ids that leave the queue, in order. -/
def drain (edges : List (String × String)) (queue : List String) (counts : OpenCounts) : List String :=
  match queue with
  | [] => []
  | id :: queue =>
    let freed := release counts (dependents edges id)
    have := weight_release counts (dependents edges id)
    id :: drain edges (queue ++ freed.2) freed.1
termination_by queue.length + counts.total
decreasing_by
  simp only [List.length_append, List.length_cons]
  omega

/-- The ids in the order in which their tables can be written, those that depend on a circle left out. -/
def orderedIds (ids : List String) (relationships : List Relationship) : List String :=
  let edges := dependencies ids relationships
  let counts := openCounts ids edges
  drain edges (ids.filter fun id => counts.get id == 0) counts

/-- The last table with an id. -/
def lastTable? (tables : List Table) (id : String) : Option Table :=
  tables.reverse.find? fun t => t.id == id

/-- The tables that can be written before all that refer to them. -/
def orderedTables (tables : List Table) (relationships : List Relationship) : List Table :=
  (orderedIds (tables.map Table.id) relationships).filterMap (lastTable? tables)

/-- The tables that depend on a circle. -/
def circularTables (tables : List Table) (relationships : List Relationship) : List Table :=
  let placed := orderedIds (tables.map Table.id) relationships
  tables.filter fun t => !placed.contains t.id

/-- All tables in the order in which they are written. -/
def tableOrder (tables : List Table) (relationships : List Relationship) : List Table :=
  orderedTables tables relationships ++ circularTables tables relationships

end Erd.Sql
