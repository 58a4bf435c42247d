import Erd.Mermaid
import Erd.Dbml.Writer
import Erd.Proofs.Sql.ForeignKeys

/-!
# What dangling relationships leave behind

A relationship that does not resolve lacks a table or, with both its tables there, a column. The writers do
not look for it in the same way. DBML and the foreign keys and link tables of SQL ask for the whole
relationship, and nothing dangling gets in. Mermaid and the order of the tables in SQL only ask for its
tables: a relationship that lacks no more than a column is still drawn, and still puts its source first.

**Results.**
* `Dbml.write_pruned`: DBML shows nothing that dangles.
* `Mermaid.write_pruned_iff`: Mermaid shows exactly what lacks only a column.
* `Sql.commands_pruned`: SQL has the same commands, with its tables in an order of their own.
* `writers_pruned`: all of this for one diagram.
* `not_writers_pruned_faded`: a relationship that is drawn and moves a table although it dangles.
-/
namespace Erd

/-- The diagram without the relationships that do not resolve. -/
def Diagram.pruned (d : Diagram) : Diagram :=
  { d with relationships := d.relationships.filter fun r => (d.resolve r).isSome }

/-- The relationship does not resolve although both its tables are there. -/
structure Diagram.LacksColumn (d : Diagram) (r : Relationship) : Prop where
  unresolved : d.resolve r = none
  source : r.source.table ∈ d.tables.map Table.id
  target : r.target.table ∈ d.tables.map Table.id

/-! ## Lists without some of their members -/

section Lists

variable {α β : Type} {p : α → Bool} {f : α → Option β} {l : List α}

/-- Leaving members out changes nothing about what is picked exactly if nothing was picked from them. -/
theorem filterMap_filter_eq_iff :
    (l.filter p).filterMap f = l.filterMap f ↔ ∀ a ∈ l, p a = false → f a = none := by
  induction l with
  | nil => simp
  | cons a l ih =>
    rw [List.forall_mem_cons, ← ih]
    cases hp : p a with
    | true =>
      rw [List.filter_cons_of_pos hp]
      cases hf : f a with
      | none => simp [hf]
      | some b => simp [hf]
    | false =>
      rw [List.filter_cons_of_neg (by simp [hp])]
      cases hf : f a with
      | none => simp [hf]
      | some b =>
        rw [List.filterMap_cons_some hf]
        have hle : ((l.filter p).filterMap f).length ≤ (l.filterMap f).length :=
          (List.filter_sublist.filterMap f).length_le
        constructor
        · intro h
          rw [h, List.length_cons] at hle
          omega
        · rintro ⟨h, -⟩
          cases h rfl

/-- The texts of a list with a separator in front of each. -/
def separated (sep : String) (ts : List String) : List Char := ts.flatMap fun t => (sep ++ t).toList

theorem length_separated_cons (sep t : String) (ts : List String) :
    (separated sep (t :: ts)).length = sep.length + t.length + (separated sep ts).length := by
  rw [separated, List.flatMap_cons, List.length_append, String.length_toList, String.length_append]
  rfl

/-- Each text after the first one comes with a separator. -/
theorem length_intercalate_cons (sep t : String) (ts : List String) :
    (sep.intercalate (t :: ts)).length = t.length + (separated sep ts).length := by
  induction ts generalizing t with
  | nil => simp [separated]
  | cons u ts ih =>
    rw [String.intercalate_cons_cons, String.length_append, String.length_append, ih, length_separated_cons]
    omega

theorem length_separated_le (sep : String) {us vs : List String} (hs : us.Sublist vs) :
    (separated sep us).length ≤ (separated sep vs).length := by
  induction hs with
  | slnil => exact Nat.le_refl _
  | cons v _ ih =>
    rw [length_separated_cons]
    omega
  | cons_cons v _ ih =>
    rw [length_separated_cons, length_separated_cons]
    omega

/-- Fewer texts after the first one are shorter together. -/
theorem eq_of_intercalate_eq {sep t : String} (hsep : 0 < sep.length) {us vs : List String}
    (hs : us.Sublist vs) (h : sep.intercalate (t :: us) = sep.intercalate (t :: vs)) : us = vs := by
  have hlen := congrArg String.length h
  rw [length_intercalate_cons, length_intercalate_cons] at hlen
  have hsum : (separated sep us).length = (separated sep vs).length := by omega
  clear h hlen
  induction hs with
  | slnil => rfl
  | @cons us vs v hs ih =>
    have hle := length_separated_le sep hs
    rw [length_separated_cons] at hsum
    omega
  | @cons_cons us vs v hs ih =>
    rw [length_separated_cons, length_separated_cons] at hsum
    rw [ih (by omega)]

end Lists

/-! ## What is left -/

section Pruned

variable {d : Diagram}

/-- Relationships that resolve are all still there. -/
theorem Diagram.filterMap_resolve_pruned (d : Diagram) (q : Relationship → Bool) :
    (d.pruned.relationships.filter q).filterMap d.resolve = (d.relationships.filter q).filterMap d.resolve := by
  have hcomm : d.pruned.relationships.filter q =
      (d.relationships.filter q).filter fun r => (d.resolve r).isSome := by
    rw [pruned, List.filter_comm]
  rw [hcomm, filterMap_filter_eq_iff]
  intro r _ hr
  simpa using hr

theorem Diagram.lastTable?_isSome_iff {id : String} :
    (d.lastTable? id).isSome ↔ id ∈ d.tables.map Table.id := by
  simp [lastTable?, List.find?_isSome]

/-- What dangles lacks a table, or just a column. -/
theorem Diagram.lacksColumn_or {r : Relationship} (h : d.resolve r = none) :
    d.LacksColumn r ∨ ¬ (r.source.table ∈ d.tables.map Table.id ∧ r.target.table ∈ d.tables.map Table.id) := by
  by_cases ht : r.source.table ∈ d.tables.map Table.id ∧ r.target.table ∈ d.tables.map Table.id
  · exact .inl ⟨h, ht.1, ht.2⟩
  · exact .inr ht

end Pruned

namespace Dbml

theorem write_pruned (d : Diagram) : write d.pruned = write d := by
  have hrefs : d.pruned.relationships.filterMap d.resolve = d.relationships.filterMap d.resolve := by
    simpa using d.filterMap_resolve_pruned fun _ => true
  have hsame : d.pruned.resolve = d.resolve := rfl
  rw [write, write, hsame, hrefs]
  rfl

end Dbml

namespace Mermaid

/-- A relationship has a line exactly if both its tables are there. -/
theorem relationLine?_eq_none_iff {d : Diagram} {r : Relationship} :
    relationLine? d r = none ↔
      ¬ (r.source.table ∈ d.tables.map Table.id ∧ r.target.table ∈ d.tables.map Table.id) := by
  rw [← Diagram.lastTable?_isSome_iff, ← Diagram.lastTable?_isSome_iff, relationLine?]
  cases d.lastTable? r.source.table with
  | none => simp
  | some s => cases d.lastTable? r.target.table <;> simp

/-- Mermaid shows exactly what lacks only a column. -/
theorem write_pruned_iff (d : Diagram) :
    write d.pruned = write d ↔ ∀ r ∈ d.relationships, ¬ d.LacksColumn r := by
  have hlines : d.pruned.relationships.filterMap (relationLine? d) =
      d.relationships.filterMap (relationLine? d) ↔ ∀ r ∈ d.relationships, ¬ d.LacksColumn r := by
    rw [Diagram.pruned, filterMap_filter_eq_iff]
    refine forall₂_congr fun r _ => ⟨fun h hl => ?_, fun h hr => ?_⟩
    · exact relationLine?_eq_none_iff.mp (h (by simp [hl.unresolved])) ⟨hl.source, hl.target⟩
    · exact relationLine?_eq_none_iff.mpr ((Diagram.lacksColumn_or (by simpa using hr)).resolve_left h)
  rw [← hlines]
  have hsame : relationLine? d.pruned = relationLine? d := rfl
  by_cases hne : d.tables = []
  · have hnone : relationLine? d = fun _ => none := by
      funext r
      rw [relationLine?_eq_none_iff, hne]
      simp
    have hempty : d.pruned.tables = [] := hne
    rw [write, write, hne, hempty, hnone]
    simp
  · have hsome : d.tables.isEmpty = false := by simpa using hne
    have htables : d.pruned.tables = d.tables := rfl
    rw [write, write, htables, hsome, hsame]
    simp only [Bool.false_eq_true, if_false, List.cons_append]
    constructor
    · intro h
      have hsub := (List.filter_sublist (p := fun r => (d.resolve r).isSome)
        (l := d.relationships)).filterMap (relationLine? d)
      exact List.append_cancel_left
        (eq_of_intercalate_eq (by decide) (hsub.append_left (d.tables.flatMap entityLines)) h)
    · intro h
      rw [h]

end Mermaid

namespace Sql

variable {d : Diagram}

theorem keyed_pruned : keyed d.pruned = keyed d := by
  rw [keyed, keyed]
  exact d.filterMap_resolve_pruned _

theorem linking_pruned : linking d.pruned = linking d := by
  rw [linking, linking]
  exact d.filterMap_resolve_pruned _

/-- The order of the tables depends on the relationships only through the pairs of tables that they order. -/
theorem tableOrder_congr {tables : List Table} {rs ss : List Relationship}
    (h : dependencies (tables.map Table.id) rs = dependencies (tables.map Table.id) ss) :
    tableOrder tables rs = tableOrder tables ss := by
  simp only [tableOrder, orderedTables, circularTables, orderedIds, h]

/-- What dangles orders tables only if it lacks no more than a column and is not between many and many. -/
theorem dependencies_pruned
    (h : ∀ r ∈ d.relationships, d.LacksColumn r → r.cardinality = .manyToMany) :
    dependencies (d.tables.map Table.id) d.pruned.relationships =
      dependencies (d.tables.map Table.id) d.relationships := by
  rw [dependencies, dependencies, Diagram.pruned, filterMap_filter_eq_iff]
  intro r hr hnone
  rw [if_neg]
  simp only [Bool.and_eq_true, decide_eq_true_eq, List.contains_iff_mem]
  rintro ⟨⟨hcard, hs⟩, ht⟩
  exact hcard (h r hr ⟨by simpa using hnone, hs, ht⟩)

/-- The commands are the same but for the order in which the tables are created. -/
theorem commands_pruned (k : Dialect) (d : Diagram) :
    commands k d = (tableOrder d.tables d.relationships).map (tableCommand k d) ++
        ((linking d).map (linkTable k) ++ addKeys k d) ∧
      commands k d.pruned = (tableOrder d.tables d.pruned.relationships).map (tableCommand k d) ++
        ((linking d).map (linkTable k) ++ addKeys k d) := by
  have hadd : addKeys k d.pruned = addKeys k d := by rw [addKeys, addKeys, keyed_pruned]
  have hcommand : tableCommand k d.pruned = tableCommand k d := by
    funext t
    rw [tableCommand, tableCommand, ownedKeys, ownedKeys, keyed_pruned]
  refine ⟨by rw [commands_eq, List.append_assoc], ?_⟩
  rw [commands_eq, linking_pruned, hadd, hcommand, List.append_assoc]
  rfl

theorem perm_commands_pruned (h : (d.tables.map Table.id).Nodup) (k : Dialect) :
    (commands k d.pruned).Perm (commands k d) := by
  obtain ⟨hall, hpruned⟩ := commands_pruned k d
  rw [hall, hpruned]
  exact (((perm_tableOrder d.pruned.relationships h).trans
    (perm_tableOrder d.relationships h).symm).map _).append_right _

end Sql

/-! ## All writers -/

/-- Without its dangling relationships a diagram has the same DBML. It has the same Mermaid drawing exactly if
none of them lacks no more than a column. Its script in SQL has the same commands with at most the tables in
another order, and is the same if all those that lack just a column are between many and many. -/
theorem writers_pruned (d : Diagram) :
    Dbml.write d.pruned = Dbml.write d ∧
      (Mermaid.write d.pruned = Mermaid.write d ↔ ∀ r ∈ d.relationships, ¬ d.LacksColumn r) ∧
      (∀ k, ∃ rest,
        Sql.commands k d =
          (Sql.tableOrder d.tables d.relationships).map (Sql.tableCommand k d) ++ rest ∧
        Sql.commands k d.pruned =
          (Sql.tableOrder d.tables d.pruned.relationships).map (Sql.tableCommand k d) ++ rest) ∧
      ((d.tables.map Table.id).Nodup → ∀ k, (Sql.commands k d.pruned).Perm (Sql.commands k d)) ∧
      ((∀ r ∈ d.relationships, d.LacksColumn r → r.cardinality = .manyToMany) →
        ∀ o k, Sql.write o k d.pruned = Sql.write o k d) := by
  refine ⟨Dbml.write_pruned d, Mermaid.write_pruned_iff d, fun k => ⟨_, Sql.commands_pruned k d⟩,
    Sql.perm_commands_pruned, fun h o k => ?_⟩
  obtain ⟨hall, hpruned⟩ := Sql.commands_pruned k d
  rw [Sql.write, Sql.write, hall, hpruned, Sql.tableOrder_congr (Sql.dependencies_pruned h)]

/-- A relationship whose column was deleted leads from the second table to the first. -/
def faded : Diagram where
  tables :=
    [{ id := "p", name := "posts", columns := [{ id := "d", name := "user_id", type := .int }] },
      { id := "u", name := "users", columns := [{ id := "c", name := "id", type := .int }] }]
  relationships := [⟨"r", .oneToMany, ⟨"u", "gone"⟩, ⟨"p", "d"⟩⟩]

/-- It does not resolve, but it is drawn, and it changes the order of the tables in every dialect. -/
theorem not_writers_pruned_faded :
    (∀ r ∈ faded.relationships, faded.resolve r = none) ∧
      Mermaid.write faded.pruned ≠ Mermaid.write faded ∧
      ∀ k, Sql.write {} k faded.pruned ≠ Sql.write {} k faded := by
  refine ⟨by decide, by decide, fun k => ?_⟩
  cases k with
  | postgresql => decide +kernel
  | mysql => decide +kernel
  | sqlite => decide +kernel

/-- The same relationship between many and many. -/
def fadedLink : Diagram := { faded with relationships := [⟨"r", .manyToMany, ⟨"u", "gone"⟩, ⟨"p", "d"⟩⟩] }

/-- Between many and many it orders nothing; otherwise the tables just trade places. -/
theorem writers_pruned_faded :
    (faded.tables.map Table.id).Nodup ∧
      (Sql.commands .mysql faded.pruned).Perm (Sql.commands .mysql faded) ∧
      (∀ r ∈ fadedLink.relationships, fadedLink.LacksColumn r → r.cardinality = .manyToMany) ∧
      ∀ o k, Sql.write o k fadedLink.pruned = Sql.write o k fadedLink :=
  have hmany : ∀ r ∈ fadedLink.relationships, fadedLink.LacksColumn r → r.cardinality = .manyToMany := by
    simp [fadedLink]
  ⟨by decide, (writers_pruned faded).2.2.2.1 (by decide) .mysql, hmany,
    (writers_pruned fadedLink).2.2.2.2 hmany⟩

end Erd
