import Erd.Proofs.Sql.TableOrder
import Erd.Sql.Writer

/-!
# Every foreign key is written once

A script walks over the tables and, in SQLite, writes into the body of each the foreign keys whose target it
is; in the other dialects it walks over the relationships once more after the tables. Link tables come in
between and have their foreign keys in their bodies. Where the ids of tables do not repeat, each relationship
that resolves has one target, so both walks write the same keys. Without circles the order of the tables puts
what a key refers to before the table that has it.

**Results.**
* `exists_spells`: a script spells its commands, statement by statement.
* `keys_tableCommand`, `keys_linkTable`: the foreign keys in the body of one table.
* `perm_owned_keyed`: the keys that the tables own are those that are written as a foreign key.
* `perm_foreignKeys`: the foreign keys of a script are those that the relationships call for.
* `parentsFirst`: without circles what a foreign key refers to is created before.
* `foreignKeys_complete`: all of this for the scripts of one diagram.
-/
namespace Erd.Sql

/-! ## What a script has to say -/

/-- The relationships that resolve, in order. -/
def resolved (g : Diagram) : List Resolved := g.relationships.filterMap g.resolve

/-- The relationship is between many and many. -/
def isLink (p : Resolved) : Bool := p.relationship.cardinality == .manyToMany

/-- The name of the link table of a relationship. -/
def linkName (p : Resolved) : String := p.sourceTable.name ++ "_" ++ p.targetTable.name

/-- The foreign keys that a relationship calls for, each with the name of the table that it belongs to: one
from the target to the source, or one from a link table to each of them. -/
def requiredKeys (p : Resolved) : List (String × KeyClause) :=
  if isLink p then
    [(linkName p, ⟨p.sourceTable.name ++ "_id", p.sourceTable.name, p.sourceColumn.name⟩),
      (linkName p, ⟨p.targetTable.name ++ "_id", p.targetTable.name, p.targetColumn.name⟩)]
  else [(p.targetTable.name, ⟨p.targetColumn.name, p.sourceTable.name, p.sourceColumn.name⟩)]

/-- The tables that these foreign keys refer to. -/
def parents (p : Resolved) : List Table := if isLink p then [p.sourceTable, p.targetTable] else [p.sourceTable]

/-- The foreign keys of a script, each with the name of the table that it belongs to. -/
def foreignKeys (cs : List Command) : List (String × KeyClause) := cs.flatMap Command.keys

/-- The command that creates a table of a diagram. -/
def tableCommand (d : Dialect) (g : Diagram) (t : Table) : Command :=
  createTable d t (if d = .sqlite then (ownedKeys g t).map .foreignKey else [])

/-- The commands create each table once and then a link table for each relationship between many and many that
resolves. Each other one that resolves is written once: in SQLite in the body of the table that it leads to, and
in the other dialects as a command of its own. -/
structure WritesOnce (d : Dialect) (g : Diagram) (cs : List Command) : Prop where
  layout : ∃ order : List Table, order.Perm g.tables ∧
    cs = order.map (tableCommand d g) ++ ((resolved g).filter isLink).map (linkTable d) ++
      (if d = .sqlite then []
        else ((resolved g).filter fun p => !isLink p).map fun p =>
          .addForeignKey p.targetTable.name (keyClause p)) ∧
    cs.filterMap Command.created? =
      order.map Table.name ++ ((resolved g).filter isLink).map linkName
  tables : ∀ t ∈ g.tables, (tableCommand d g t).keys =
    if d = .sqlite then
      (((resolved g).filter fun p => !isLink p).filter fun p => p.targetTable.id == t.id).flatMap requiredKeys
    else []
  links : ∀ p ∈ (resolved g).filter isLink, (linkTable d p).keys = requiredKeys p
  keys : (foreignKeys cs).Perm ((resolved g).flatMap requiredKeys)

/-- Every foreign key stands after the commands that create the tables that it refers to. -/
def ParentsFirst (d : Dialect) (g : Diagram) (cs : List Command) : Prop :=
  ∀ (i : Nat) (c : Command), cs[i]? = some c → ∀ k ∈ c.keys, ∃ p ∈ resolved g, k ∈ requiredKeys p ∧
    k.2.table ∈ (parents p).map Table.name ∧ ∀ t ∈ parents p, ∃ j < i, cs[j]? = some (tableCommand d g t)

/-! ## How it is spelled -/

/-- A line of a body as text: one foreign key clause, the columns of the primary key, or a column. -/
inductive SpellsLine : BodyLine → String → Prop
  | column (name : String) (words : List String) :
      SpellsLine (.column name words) ("  " ++ " ".intercalate (name :: words))
  | primaryKey (columns : List String) :
      SpellsLine (.primaryKey columns) ("  PRIMARY KEY (" ++ ", ".intercalate columns ++ ")")
  | foreignKey (column table referenced : String) :
      SpellsLine (.foreignKey ⟨column, table, referenced⟩)
        ("  FOREIGN KEY (" ++ column ++ ") REFERENCES " ++ table ++ "(" ++ referenced ++ ")")

/-- What ends the body of a table. -/
inductive SpellsClosing (o : TableOptions) : Dialect → String → Prop
  | mysql : SpellsClosing o .mysql (") ENGINE=" ++ o.engine ++ " DEFAULT CHARSET=" ++ o.charset ++ ";")
  | other {d : Dialect} (h : d ≠ .mysql) : SpellsClosing o d ");"

/-- A command as text: one statement that creates a table with the lines of its body, or one that adds a foreign
key to a table. -/
inductive SpellsCommand (o : TableOptions) (d : Dialect) : Command → String → Prop
  | emptyTable (name : String) {closing : String} (h : SpellsClosing o d closing) :
      SpellsCommand o d (.createTable name []) ("CREATE TABLE " ++ name ++ " (\n" ++ closing)
  | createTable (name : String) {lines : List BodyLine} {texts : List String} {closing : String} (hne : lines ≠ [])
      (hlines : List.Forall₂ SpellsLine lines texts) (h : SpellsClosing o d closing) :
      SpellsCommand o d (.createTable name lines)
        ("CREATE TABLE " ++ name ++ " (\n" ++ ",\n".intercalate texts ++ "\n" ++ closing)
  | addForeignKey (name column table referenced : String) :
      SpellsCommand o d (.addForeignKey name ⟨column, table, referenced⟩)
        ("ALTER TABLE " ++ name ++ " ADD CONSTRAINT fk_" ++ name ++ "_" ++ column ++ "\n  FOREIGN KEY (" ++ column ++
          ") REFERENCES " ++ table ++ "(" ++ referenced ++ ");")

theorem spellsClosing (o : TableOptions) (d : Dialect) : SpellsClosing o d (o.closing d) := by
  cases d with
  | mysql => exact .mysql
  | _ => exact .other (by decide)

theorem spellsLine_text {line : BodyLine} (h : ∀ text, line ≠ .clause text) : SpellsLine line line.text := by
  cases line with
  | column name words => exact .column name words
  | primaryKey columns => exact .primaryKey columns
  | foreignKey k =>
    have htext : (BodyLine.foreignKey k).text =
        "  FOREIGN KEY (" ++ k.column ++ ") REFERENCES " ++ k.table ++ "(" ++ k.referenced ++ ")" := by
      unfold BodyLine.text KeyClause.text
      exact String.toList_inj.mp (by simp)
    rw [htext]
    exact .foreignKey k.column k.table k.referenced
  | clause text => exact absurd rfl (h text)

/-- The text of a command spells it, unless it has a line that is given as text. -/
theorem spellsCommand_text (o : TableOptions) (d : Dialect) {c : Command}
    (h : ∀ name lines, c = .createTable name lines → ∀ text, .clause text ∉ lines) :
    SpellsCommand o d c (c.text o d) := by
  cases c with
  | createTable name lines =>
    have hlines : List.Forall₂ SpellsLine lines (lines.map BodyLine.text) := by
      rw [List.forall₂_map_right_iff, List.forall₂_same]
      exact fun line hline => spellsLine_text fun text he => h name lines rfl text (he ▸ hline)
    cases lines with
    | nil => exact .emptyTable name (spellsClosing o d)
    | cons line lines => exact .createTable name (by simp) hlines (spellsClosing o d)
  | addForeignKey name k =>
    have htext : (Command.addForeignKey name k).text o d =
        "ALTER TABLE " ++ name ++ " ADD CONSTRAINT fk_" ++ name ++ "_" ++ k.column ++ "\n  FOREIGN KEY (" ++ k.column ++
          ") REFERENCES " ++ k.table ++ "(" ++ k.referenced ++ ");" := by
      unfold Command.text KeyClause.text
      exact String.toList_inj.mp (by simp)
    rw [htext]
    exact .addForeignKey name k.column k.table k.referenced

/-! ## Relationships that resolve -/

section Resolved

variable {g : Diagram}

/-- What is told by cardinality can be told before resolving. -/
theorem filter_resolved (q : Cardinality → Bool) :
    ((resolved g).filter fun p => q p.relationship.cardinality) =
      (g.relationships.filter fun r => q r.cardinality).filterMap g.resolve := by
  rw [resolved, List.filter_filterMap, List.filterMap_filter]
  refine List.filterMap_congr fun r _ => ?_
  cases hr : g.resolve r with
  | none => simp
  | some p =>
    obtain ⟨hpr, -⟩ := Diagram.resolve_ends hr
    simp [Option.filter_some, hpr]

theorem linking_eq_filter : linking g = (resolved g).filter isLink :=
  (filter_resolved fun c => c == .manyToMany).symm

theorem keyed_eq_filter : keyed g = (resolved g).filter fun p => !isLink p :=
  (filter_resolved fun c => c != .manyToMany).symm

/-- Without tables nothing resolves. -/
theorem resolved_eq_nil (h : g.tables = []) : resolved g = [] := by
  refine List.filterMap_eq_nil_iff.mpr fun r _ => Option.eq_none_iff_forall_ne_some.mpr fun p hp => ?_
  have := (Diagram.resolve_mem hp).1.1
  rw [h] at this
  cases this

/-- A relationship that is written as a foreign key stands between columns of the diagram. -/
theorem mem_keyed {p : Resolved} (hp : p ∈ keyed g) :
    ((p.sourceTable ∈ g.tables ∧ p.sourceColumn ∈ p.sourceTable.columns) ∧
      (p.targetTable ∈ g.tables ∧ p.targetColumn ∈ p.targetTable.columns)) ∧
        p.relationship.target.table = p.targetTable.id := by
  obtain ⟨r, -, hr⟩ := List.mem_filterMap.mp hp
  obtain ⟨hpr, -, -, hid, -⟩ := Diagram.resolve_ends hr
  exact ⟨Diagram.resolve_mem hr, by rw [hpr, hid]⟩

theorem mem_tables_of_mem_parents {p : Resolved} (hp : p ∈ resolved g) {t : Table} (ht : t ∈ parents p) :
    t ∈ g.tables := by
  obtain ⟨r, -, hr⟩ := List.mem_filterMap.mp hp
  obtain ⟨⟨hs, -⟩, htarget, -⟩ := Diagram.resolve_mem hr
  unfold parents at ht
  split at ht
  · rcases List.mem_pair.mp ht with rfl | rfl
    · exact hs
    · exact htarget
  · obtain rfl := List.mem_singleton.mp ht
    exact hs

theorem table_of_mem_requiredKeys {p : Resolved} {k : String × KeyClause} (hk : k ∈ requiredKeys p) :
    k.2.table ∈ (parents p).map Table.name := by
  unfold requiredKeys at hk
  unfold parents
  split at hk
  · next h =>
    rw [if_pos h]
    rcases List.mem_pair.mp hk with rfl | rfl <;> simp
  · next h =>
    obtain rfl := List.mem_singleton.mp hk
    rw [if_neg h]
    simp

theorem resolved_of_mem_keyed {p : Resolved} (hp : p ∈ keyed g) : p ∈ resolved g ∧ isLink p = false := by
  rw [keyed_eq_filter] at hp
  simpa using hp

theorem requiredKeys_of_mem_keyed {p : Resolved} (hp : p ∈ keyed g) :
    requiredKeys p = [(p.targetTable.name, keyClause p)] := by
  rw [requiredKeys, (resolved_of_mem_keyed hp).2]
  rfl

theorem parents_of_mem_keyed {p : Resolved} (hp : p ∈ keyed g) : parents p = [p.sourceTable] := by
  rw [parents, (resolved_of_mem_keyed hp).2]
  rfl

/-- What is written as a foreign key orders the tables that it stands between. -/
theorem precedes_of_mem_keyed {p : Resolved} (hp : p ∈ keyed g) :
    Precedes g.tables g.relationships p.sourceTable.id p.targetTable.id := by
  obtain ⟨⟨⟨hs, -⟩, ht, -⟩, -⟩ := mem_keyed hp
  obtain ⟨r, hr, hres⟩ := List.mem_filterMap.mp hp
  obtain ⟨hr, hcard⟩ := List.mem_filter.mp hr
  obtain ⟨-, hsource, -, htarget, -⟩ := Diagram.resolve_ends hres
  exact ⟨r, hr, by simpa using hcard, hsource.symm, htarget.symm, List.mem_map_of_mem hs,
    List.mem_map_of_mem ht⟩

/-! ## Who owns a key -/

/-- Whatever the order of the owners, together they own everything once. -/
theorem flatMap_filter_perm {α β κ : Type} [DecidableEq κ] {key : α → κ} {name : β → κ} {owners : List β}
    {l : List α} (hn : (owners.map name).Nodup) (hl : ∀ a ∈ l, key a ∈ owners.map name) :
    (owners.flatMap fun b => l.filter fun a => key a == name b).Perm l := by
  induction owners generalizing l with
  | nil =>
    have hnil : l = [] := List.eq_nil_iff_forall_not_mem.mpr fun a ha => by cases hl a ha
    rw [hnil]
    exact List.Perm.refl _
  | cons b owners ih =>
    obtain ⟨hb, hn⟩ := List.nodup_cons.mp hn
    let others := l.filter fun a => !(key a == name b)
    have hothers : ∀ a ∈ others, key a ∈ owners.map name := by
      intro a ha
      obtain ⟨hal, hab⟩ := List.mem_filter.mp ha
      have hne : key a ≠ name b := by simpa using hab
      exact (List.mem_cons.mp (hl a hal)).resolve_left hne
    have hrest : (owners.flatMap fun e => l.filter fun a => key a == name e) =
        owners.flatMap fun e => others.filter fun a => key a == name e := by
      refine List.flatMap_congr fun e he => ?_
      rw [List.filter_filter]
      refine List.filter_congr fun a _ => ?_
      by_cases hk : key a = name e
      · have hne : key a ≠ name b := fun h => hb (List.mem_map.mpr ⟨e, he, hk.symm.trans h⟩)
        simp [hk, hk ▸ hne]
      · simp [hk]
    rw [List.flatMap_cons, hrest]
    exact ((ih hn hothers).append_left _).trans (List.filter_append_perm _ l)

/-- The relationships whose foreign keys a table owns. -/
def owned (g : Diagram) (t : Table) : List Resolved :=
  (keyed g).filter fun p => p.relationship.target.table == t.id

section Owned

variable (h : (g.tables.map Table.id).Nodup)

include h

theorem targetTable_of_mem_owned {t : Table} (ht : t ∈ g.tables) {p : Resolved} (hp : p ∈ owned g t) :
    p.targetTable = t := by
  obtain ⟨hp, hid⟩ := List.mem_filter.mp hp
  obtain ⟨⟨-, hpt, -⟩, htarget⟩ := mem_keyed hp
  refine List.inj_on_of_nodup_map h hpt ht ?_
  rw [← htarget]
  simpa using hid

/-- Everything that is written as a foreign key is owned by one table. -/
theorem perm_owned_keyed : ((tableOrder g.tables g.relationships).flatMap (owned g)).Perm (keyed g) := by
  have hids := (perm_tableOrder g.relationships h).map Table.id
  refine flatMap_filter_perm (hids.nodup_iff.mpr h) fun p hp => ?_
  obtain ⟨⟨-, ht, -⟩, hid⟩ := mem_keyed hp
  rw [hid]
  exact hids.mem_iff.mpr (List.mem_map_of_mem ht)

end Owned

end Resolved

/-! ## The keys of one command -/

section Commands

variable {d : Dialect} {g : Diagram}

theorem keys_append (name : String) (as bs : List BodyLine) :
    (Command.createTable name (as ++ bs)).keys =
      (Command.createTable name as).keys ++ (Command.createTable name bs).keys :=
  List.filterMap_append

theorem keys_createTable (d : Dialect) (t : Table) (ks : List KeyClause) :
    (createTable d t (ks.map .foreignKey)).keys = ks.map fun k => (t.name, k) := by
  have hcols : (Command.createTable t.name
      (t.columns.map fun c => .column c.name (columnWords d c))).keys = [] := by
    rw [Command.keys, List.filterMap_map]
    exact List.filterMap_eq_nil_iff.mpr fun c _ => rfl
  have hkey : (Command.createTable t.name (keyLine d t.columns)).keys = [] := by
    unfold keyLine
    split <;> rfl
  have hextra : (Command.createTable t.name (ks.map .foreignKey)).keys = ks.map fun k => (t.name, k) := by
    rw [Command.keys, List.filterMap_map, ← List.filterMap_eq_map]
    rfl
  rw [createTable, keys_append, keys_append, hcols, hkey, hextra]
  rfl

/-- In SQLite the body of a table has the foreign keys that the table owns. -/
theorem keys_tableCommand (h : (g.tables.map Table.id).Nodup) {t : Table} (ht : t ∈ g.tables) :
    (tableCommand d g t).keys = if d = .sqlite then (owned g t).flatMap requiredKeys else [] := by
  unfold tableCommand
  split
  · have hkeys : (owned g t).flatMap requiredKeys = (owned g t).flatMap fun p => [(t.name, keyClause p)] := by
      refine List.flatMap_congr fun p hp => ?_
      rw [requiredKeys_of_mem_keyed (List.mem_of_mem_filter hp), targetTable_of_mem_owned h ht hp]
    rw [keys_createTable, hkeys, ownedKeys, List.map_map, ← List.map_eq_flatMap]
    rfl
  · exact keys_createTable d t []

theorem keys_linkTable (d : Dialect) {p : Resolved} (hp : p ∈ linking g) :
    (linkTable d p).keys = requiredKeys p := by
  rw [linking_eq_filter] at hp
  rw [requiredKeys, if_pos (List.mem_filter.mp hp).2]
  rfl

/-! ## Whole scripts -/

theorem tableOrder_eq_nil (h : g.tables = []) : tableOrder g.tables g.relationships = [] := by
  rw [h]
  exact List.perm_nil.mp (perm_tableOrder g.relationships List.nodup_nil)

theorem commands_eq (d : Dialect) (g : Diagram) :
    commands d g = (tableOrder g.tables g.relationships).map (tableCommand d g) ++
      (linking g).map (linkTable d) ++ addKeys d g := by
  by_cases hne : g.tables = []
  · rw [commands, addKeys, linking_eq_filter, keyed_eq_filter, resolved_eq_nil hne, tableOrder_eq_nil hne, hne]
    simp
  · rw [commands, if_neg (by simpa using hne)]
    rfl

theorem clause_not_mem_createTable (d : Dialect) (t : Table) (ks : List KeyClause) (text : String) :
    .clause text ∉ t.columns.map (fun c => .column c.name (columnWords d c)) ++ keyLine d t.columns ++
      ks.map BodyLine.foreignKey := by
  have hkey : .clause text ∉ keyLine d t.columns := by
    unfold keyLine
    split <;> simp
  simp [hkey]

/-- No line of a script is given as text. -/
theorem clause_not_mem_commands {name : String} {lines : List BodyLine}
    (h : .createTable name lines ∈ commands d g) (text : String) : .clause text ∉ lines := by
  rw [commands_eq] at h
  rcases List.mem_append.mp h with h | h
  · rcases List.mem_append.mp h with h | h
    · obtain ⟨t, -, he⟩ := List.mem_map.mp h
      unfold tableCommand at he
      split at he
      · cases he
        exact clause_not_mem_createTable d t (ownedKeys g t) text
      · cases he
        exact clause_not_mem_createTable d t [] text
    · obtain ⟨p, -, he⟩ := List.mem_map.mp h
      cases he
      simp
  · unfold addKeys at h
    split at h
    · cases h
    · obtain ⟨p, -, he⟩ := List.mem_map.mp h
      cases he

/-- A script spells its commands one after the other, with blank lines in between. -/
theorem exists_spells (o : TableOptions) (d : Dialect) (g : Diagram) :
    ∃ texts, write o d g = "\n\n".intercalate texts ∧ List.Forall₂ (SpellsCommand o d) (commands d g) texts := by
  refine ⟨(commands d g).map (Command.text o d), rfl, ?_⟩
  rw [List.forall₂_map_right_iff, List.forall₂_same]
  rintro c hc
  refine spellsCommand_text o d ?_
  rintro name lines rfl text
  exact clause_not_mem_commands hc text

theorem created_commands (d : Dialect) (g : Diagram) :
    (commands d g).filterMap Command.created? =
      (tableOrder g.tables g.relationships).map Table.name ++ (linking g).map linkName := by
  have hadded : (addKeys d g).filterMap Command.created? = [] := by
    refine List.filterMap_eq_nil_iff.mpr fun c hc => ?_
    unfold addKeys at hc
    split at hc
    · cases hc
    · obtain ⟨p, -, rfl⟩ := List.mem_map.mp hc
      rfl
  rw [commands_eq, List.filterMap_append, List.filterMap_append, hadded, List.append_nil,
    List.filterMap_map, List.filterMap_map, ← List.filterMap_eq_map, ← List.filterMap_eq_map]
  rfl

/-- The foreign keys of a script are those that the relationships call for. -/
theorem perm_foreignKeys (h : (g.tables.map Table.id).Nodup) (d : Dialect) :
    (foreignKeys (commands d g)).Perm ((resolved g).flatMap requiredKeys) := by
  have htables : foreignKeys ((tableOrder g.tables g.relationships).map (tableCommand d g)) =
      if d = .sqlite then ((tableOrder g.tables g.relationships).flatMap (owned g)).flatMap requiredKeys
      else [] := by
    rw [foreignKeys, List.flatMap_map]
    have hkeys : ∀ t ∈ tableOrder g.tables g.relationships, (tableCommand d g t).keys =
        if d = .sqlite then (owned g t).flatMap requiredKeys else [] :=
      fun t ht => keys_tableCommand h ((perm_tableOrder g.relationships h).mem_iff.mp ht)
    rw [List.flatMap_congr hkeys]
    split
    · rw [List.flatMap_assoc]
    · simp
  have hlinks : foreignKeys ((linking g).map (linkTable d)) = (linking g).flatMap requiredKeys := by
    rw [foreignKeys, List.flatMap_map]
    exact List.flatMap_congr fun p hp => keys_linkTable d hp
  have hadded : foreignKeys (addKeys d g) = if d = .sqlite then [] else (keyed g).flatMap requiredKeys := by
    unfold addKeys
    split
    · rfl
    · rw [foreignKeys, List.flatMap_map]
      exact List.flatMap_congr fun p hp => (requiredKeys_of_mem_keyed hp).symm
  have hall : (linking g ++ keyed g).Perm (resolved g) := by
    rw [linking_eq_filter, keyed_eq_filter]
    exact List.filter_append_perm isLink (resolved g)
  have hsplit : foreignKeys (commands d g) =
      foreignKeys ((tableOrder g.tables g.relationships).map (tableCommand d g)) ++
        foreignKeys ((linking g).map (linkTable d)) ++ foreignKeys (addKeys d g) := by
    rw [commands_eq, foreignKeys, List.flatMap_append, List.flatMap_append]
    rfl
  refine List.Perm.trans ?_ (hall.flatMap_right requiredKeys)
  rw [hsplit, htables, hlinks, hadded, List.flatMap_append]
  split
  · rw [List.append_nil]
    exact (((perm_owned_keyed h).flatMap_right requiredKeys).append_right _).trans List.perm_append_comm
  · rw [List.nil_append]

/-- Without circles what precedes a table stands before it. -/
theorem index_lt_of_precedes (h : (g.tables.map Table.id).Nodup)
    (hacyclic : ∀ id, ¬ Relation.TransGen (Precedes g.tables g.relationships) id id) {i j : Nat} {s t : Table}
    (hs : (tableOrder g.tables g.relationships)[i]? = some s)
    (ht : (tableOrder g.tables g.relationships)[j]? = some t)
    (hst : Precedes g.tables g.relationships s.id t.id) : i < j := by
  have hno (u : Table) : ¬ DependsOnCircle g.tables g.relationships u := fun ⟨c, hcc, _⟩ => hacyclic c hcc
  obtain ⟨-, hi⟩ := index_tableOrder g.relationships h hs (hno s)
  obtain ⟨hm, hj⟩ := index_tableOrder g.relationships h ht (hno t)
  have := (orderedIds_source g.relationships h hst hm).2
  omega

theorem getElem?_commands (d : Dialect) {j : Nat} {t : Table}
    (ht : (tableOrder g.tables g.relationships)[j]? = some t) :
    (commands d g)[j]? = some (tableCommand d g t) := by
  have hj : j < ((tableOrder g.tables g.relationships).map (tableCommand d g)).length := by
    rw [List.length_map]
    exact (List.getElem?_eq_some_iff.mp ht).1
  rw [commands_eq, List.append_assoc, List.getElem?_append_left hj, List.getElem?_map, ht, Option.map_some]

/-- A command after those of the tables has the foreign keys of one relationship. -/
theorem keys_of_late {i : Nat} {c : Command}
    (hi : (tableOrder g.tables g.relationships).length ≤ i) (hc : (commands d g)[i]? = some c) :
    ∃ p ∈ resolved g, c.keys = requiredKeys p := by
  have hlate : c ∈ (linking g).map (linkTable d) ++ addKeys d g := by
    rw [commands_eq, List.append_assoc,
      List.getElem?_append_right (by rw [List.length_map]; exact hi)] at hc
    exact List.mem_of_getElem? hc
  rcases List.mem_append.mp hlate with hl | hl
  · obtain ⟨p, hp, rfl⟩ := List.mem_map.mp hl
    refine ⟨p, ?_, keys_linkTable d hp⟩
    rw [linking_eq_filter] at hp
    exact List.mem_of_mem_filter hp
  · unfold addKeys at hl
    split at hl
    · cases hl
    · obtain ⟨p, hp, rfl⟩ := List.mem_map.mp hl
      exact ⟨p, (resolved_of_mem_keyed hp).1, (requiredKeys_of_mem_keyed hp).symm⟩

/-- Without circles what a foreign key refers to is created before. -/
theorem parentsFirst (h : (g.tables.map Table.id).Nodup)
    (hacyclic : ∀ id, ¬ Relation.TransGen (Precedes g.tables g.relationships) id id) (d : Dialect) :
    ParentsFirst d g (commands d g) := by
  have hplace {t : Table} (ht : t ∈ g.tables) : ∃ j, (tableOrder g.tables g.relationships)[j]? = some t :=
    List.mem_iff_getElem?.mp ((perm_tableOrder g.relationships h).mem_iff.mpr ht)
  intro i c hc k hk
  by_cases hi : i < (tableOrder g.tables g.relationships).length
  · -- a table that refers to others, in SQLite
    obtain ⟨t, ht⟩ : ∃ t, (tableOrder g.tables g.relationships)[i]? = some t := ⟨_, List.getElem?_eq_getElem hi⟩
    rw [getElem?_commands d ht] at hc
    cases hc
    have hmem := (perm_tableOrder g.relationships h).mem_iff.mp (List.mem_of_getElem? ht)
    rw [keys_tableCommand h hmem] at hk
    split at hk
    · obtain ⟨p, hp, hkp⟩ := List.mem_flatMap.mp hk
      have hpk := List.mem_of_mem_filter hp
      have hprec := precedes_of_mem_keyed hpk
      rw [targetTable_of_mem_owned h hmem hp] at hprec
      refine ⟨p, (resolved_of_mem_keyed hpk).1, hkp, table_of_mem_requiredKeys hkp, fun s hs => ?_⟩
      rw [parents_of_mem_keyed hpk] at hs
      obtain rfl := List.mem_singleton.mp hs
      obtain ⟨j, hj⟩ := hplace (mem_keyed hpk).1.1.1
      exact ⟨j, index_lt_of_precedes h hacyclic hj ht hprec, getElem?_commands d hj⟩
    · cases hk
  · -- a link table or a key that is added, after all tables
    obtain ⟨p, hp, he⟩ := keys_of_late (by omega) hc
    rw [he] at hk
    refine ⟨p, hp, hk, table_of_mem_requiredKeys hk, fun t ht => ?_⟩
    obtain ⟨j, hj⟩ := hplace (mem_tables_of_mem_parents hp ht)
    have hlt := (List.getElem?_eq_some_iff.mp hj).1
    exact ⟨j, by omega, getElem?_commands d hj⟩

end Commands

/-- A script spells commands one after the other, each as one statement, and each foreign key of one as one clause
of it. Where the ids of tables do not repeat, these commands write every table and every relationship that resolves
once, with the same foreign keys in all dialects. Without circles what a foreign key refers to is created before. -/
theorem foreignKeys_complete {g : Diagram} (h : (g.tables.map Table.id).Nodup) :
    (∀ o d, ∃ texts, write o d g = "\n\n".intercalate texts ∧
      List.Forall₂ (SpellsCommand o d) (commands d g) texts) ∧
      (∀ d, WritesOnce d g (commands d g)) ∧
      (∀ d e, (foreignKeys (commands d g)).Perm (foreignKeys (commands e g))) ∧
      ((∀ id, ¬ Relation.TransGen (Precedes g.tables g.relationships) id id) →
        ∀ d, ParentsFirst d g (commands d g)) := by
  refine ⟨fun o d => exists_spells o d g, fun d => ⟨?_, fun t ht => ?_, fun p hp => ?_, perm_foreignKeys h d⟩,
    fun d e => ?_, parentsFirst h⟩
  · refine ⟨tableOrder g.tables g.relationships, perm_tableOrder g.relationships h, ?_, ?_⟩
    · rw [commands_eq, linking_eq_filter, addKeys, keyed_eq_filter]
    · rw [created_commands, linking_eq_filter]
  · have howned : owned g t = (keyed g).filter fun p => p.targetTable.id == t.id :=
      List.filter_congr fun p hp => by rw [(mem_keyed hp).2]
    rw [keys_tableCommand h ht, howned, keyed_eq_filter]
  · rw [← linking_eq_filter] at hp
    exact keys_linkTable d hp
  · exact (perm_foreignKeys h d).trans (perm_foreignKeys h e).symm

/-- Three tables, of which the first refers to the second and is linked with the third; one relationship leads
nowhere. -/
def blog : Diagram where
  tables :=
    [{ id := "p", name := "posts", columns := [{ id := "d", name := "user_id", type := .int }] },
      { id := "u", name := "users", columns := [{ id := "c", name := "id", type := .serial }] },
      { id := "t", name := "tags", columns := [{ id := "e", name := "id", type := .uuid }] }]
  relationships :=
    [⟨"1", .oneToMany, ⟨"u", "c"⟩, ⟨"p", "d"⟩⟩, ⟨"2", .manyToMany, ⟨"p", "d"⟩, ⟨"t", "e"⟩⟩,
      ⟨"3", .oneToOne, ⟨"u", "c"⟩, ⟨"x", "f"⟩⟩]

theorem foreignKeys_complete_blog :
    (blog.tables.map Table.id).Nodup ∧
      (∀ id, ¬ Relation.TransGen (Precedes blog.tables blog.relationships) id id) ∧
      (∀ o d, ∃ texts, write o d blog = "\n\n".intercalate texts ∧
        List.Forall₂ (SpellsCommand o d) (commands d blog) texts) ∧
      (∀ d, WritesOnce d blog (commands d blog)) ∧
      (∀ d e, (foreignKeys (commands d blog)).Perm (foreignKeys (commands e blog))) ∧
      ∀ d, ParentsFirst d blog (commands d blog) := by
  have hn : (blog.tables.map Table.id).Nodup := by decide
  have hone {a b : String} (hab : Precedes blog.tables blog.relationships a b) : a = "u" ∧ b = "p" := by
    obtain ⟨r, hr, hcard, rfl, rfl, -, hb⟩ := hab
    simp only [blog, List.mem_cons, List.not_mem_nil, or_false] at hr
    rcases hr with rfl | rfl | rfl
    · exact ⟨rfl, rfl⟩
    · exact absurd rfl hcard
    · exact absurd hb (by decide)
  have hacyclic (id : String) : ¬ Relation.TransGen (Precedes blog.tables blog.relationships) id id := by
    intro hcircle
    obtain ⟨b, hfirst, -⟩ := Relation.TransGen.head'_iff.mp hcircle
    obtain ⟨a, -, hlast⟩ := Relation.TransGen.tail'_iff.mp hcircle
    exact absurd ((hone hfirst).1.symm.trans (hone hlast).2) (by decide)
  obtain ⟨htext, honce, hsame, hfirst⟩ := foreignKeys_complete hn
  exact ⟨hn, hacyclic, htext, honce, hsame, hfirst hacyclic⟩

end Erd.Sql
