import Erd.Proofs.Sql.ForeignKeys
import Mathlib.Data.List.Basic

/-!
# What a script defines twice

A script creates the tables of a diagram under their own names, and a link table under a name that is joined from
those of the tables it links; the columns of a link table are called after these tables too. Nothing looks whether
such a name is in use. A relationship of a table with itself calls both columns of its link table the same, and link
tables can meet each other and the tables of the diagram. Nothing else is defined twice, whether names are compared
as they are or case aside.

**Results.**
* `lower_append_underscore`: the small form of names joined by an underscore.
* `definesOnce_commands_iff`: a script defines nothing twice exactly if the names of its link tables are fresh.
* `freshLinks_of_plain`: they are where no table is linked with itself or twice with another and no name has an
  underscore of its own.
* `definesOnce_script`: all of this for the script of a diagram.
* `not_definesOnce_friends`: a link table with two columns of one name.
-/
namespace Erd

/-! ## Underscores and letter case -/

namespace Text

theorem isCaseIgnorable_underscore : isCaseIgnorable '_' = false := by decide +kernel

/-- No letter is looked for beyond an underscore. -/
theorem startsCased_append_underscore (s t : List Char) : startsCased (s ++ '_' :: t) = startsCased s := by
  induction s with
  | nil =>
    rw [List.nil_append, startsCased, List.dropWhile_cons_of_neg (by simp [isCaseIgnorable_underscore])]
    rfl
  | cons c s ih =>
    by_cases hc : isCaseIgnorable c = true
    · rw [startsCased, List.cons_append, List.dropWhile_cons_of_pos hc, startsCased, List.dropWhile_cons_of_pos hc]
      exact ih
    · rw [startsCased, List.cons_append, List.dropWhile_cons_of_neg hc, startsCased, List.dropWhile_cons_of_neg hc]

theorem lowerFrom_append_underscore (after : Bool) (s t : List Char) :
    lowerFrom after (s ++ '_' :: t) = lowerFrom after s ++ '_' :: lower t := by
  induction s generalizing after with
  | nil =>
    have hstep : lowerFrom after ('_' :: t) =
        lowerChar '_' ++ lowerFrom (if isCaseIgnorable '_' then after else isCased '_') t := rfl
    rw [List.nil_append, hstep, isCaseIgnorable_underscore]
    rfl
  | cons c s ih => rw [List.cons_append, lowerFrom, lowerFrom, startsCased_append_underscore, ih, List.append_assoc]

theorem lower_append_underscore (s t : List Char) : lower (s ++ '_' :: t) = lower s ++ '_' :: lower t :=
  lowerFrom_append_underscore false s t

theorem mem_of_shiftOf? {runs : List CaseRun} {n : Nat} {d : Int} (h : CaseRun.shiftOf? runs n = some d) :
    ∃ r ∈ runs, r.first ≤ n ∧ r.shift = d := by
  induction runs with
  | nil => cases h
  | cons r runs ih =>
    rw [CaseRun.shiftOf?] at h
    split at h
    · next hr =>
      cases h
      simp only [Bool.and_eq_true, decide_eq_true_eq] at hr
      exact ⟨r, List.mem_cons_self, hr.1.1, rfl⟩
    · obtain ⟨r', hr', hn⟩ := ih h
      exact ⟨r', List.mem_cons_of_mem r hr', hn⟩

theorem eq_of_ofNat_eq_underscore {n : Nat} (h : Char.ofNat n = '_') : n = 95 := by
  by_cases hv : n.isValidChar
  · rw [Char.ofNat, dif_pos hv] at h
    exact congrArg Char.toNat h
  · rw [Char.ofNat, dif_neg hv] at h
    exact absurd h (by decide)

/-- No other character has an underscore as its small form. -/
theorem eq_underscore_of_mem_lowerChar {c : Char} (h : '_' ∈ lowerChar c) : c = '_' := by
  unfold lowerChar at h
  split at h
  · next hc =>
    have hsmall : ∀ n < 128, '_' = (Char.ofNat n).toLower → Char.ofNat n = '_' := by decide
    have := hsmall c.toNat hc
    rw [Char.ofNat_toNat] at this
    exact this (List.mem_singleton.mp h)
  · split at h
    · exact absurd h (by decide)
    · have hs := List.mem_singleton.mp h
      unfold shifted at hs
      split at hs
      · next d hd =>
        obtain ⟨r, hr, hn, rfl⟩ := mem_of_shiftOf? hd
        -- no run reaches down to the underscore
        have hfar : ∀ r ∈ lowerRuns, 96 ≤ r.first + r.shift := by decide +kernel
        have hle := hfar r hr
        have h95 := eq_of_ofNat_eq_underscore hs.symm
        omega
      · exact hs.symm

theorem underscore_notMem_lower {s : List Char} (h : '_' ∉ s) : '_' ∉ lower s := by
  have hfrom (after : Bool) : '_' ∉ lowerFrom after s := by
    induction s generalizing after with
    | nil => exact List.not_mem_nil
    | cons c s ih =>
      rw [List.mem_cons, not_or] at h
      rw [lowerFrom, List.mem_append, not_or]
      refine ⟨fun hc => ?_, ih h.2 _⟩
      split at hc
      · split at hc <;> exact absurd hc (by decide)
      · exact h.1 (eq_underscore_of_mem_lowerChar hc).symm
  exact hfrom false

end Text

namespace Sql

/-! ## Names -/

/-- Names are compared by a key that takes names joined by an underscore part by part. -/
structure ByParts (key : String → String) : Prop where
  join : ∀ a b, key (a ++ "_" ++ b) = key a ++ "_" ++ key b
  plain : ∀ a, '_' ∉ a.toList → '_' ∉ (key a).toList

theorem byParts_id : ByParts id := ⟨fun _ _ => rfl, fun _ h => h⟩

theorem byParts_nameKey : ByParts nameKey where
  join a b := by
    have hjoin : (a ++ "_" ++ b).toList = a.toList ++ '_' :: b.toList := by simp
    rw [nameKey, hjoin, Text.lower_append_underscore, nameKey, nameKey]
    exact String.ext (by simp)
  plain a h := by
    rw [nameKey, String.toList_ofList]
    exact Text.underscore_notMem_lower h

/-- The commands define nothing twice, names being compared by a key: no two create tables of one name, and none
declares two columns of one name. -/
structure DefinesOnce (key : String → String) (cs : List Command) : Prop where
  tables : ((cs.filterMap Command.created?).map key).Nodup
  columns : ∀ c ∈ cs, (c.columnNames.map key).Nodup

/-- The ids of the tables differ, and so do their names, and those of the columns in each, case aside. -/
structure DistinctNames (g : Diagram) : Prop where
  ids : (g.tables.map Table.id).Nodup
  tables : (g.tables.map fun t => nameKey t.name).Nodup
  columns : ∀ t ∈ g.tables, (t.columns.map fun c => nameKey c.name).Nodup

/-- No link table has the name of another or of a table of the diagram, and none links a table with itself. -/
structure FreshLinks (key : String → String) (g : Diagram) : Prop where
  distinct : ((linking g).map fun p => key (linkName p)).Nodup
  fresh : ∀ p ∈ linking g, ∀ t ∈ g.tables, key (linkName p) ≠ key t.name
  apart : ∀ p ∈ linking g, p.sourceTable.id ≠ p.targetTable.id

/-- No table is linked with itself or twice with another the same way round, and no table has an underscore in its
name. -/
structure PlainLinks (g : Diagram) : Prop where
  apart : ∀ p ∈ linking g, p.sourceTable.id ≠ p.targetTable.id
  once : ((linking g).map fun p => (p.sourceTable.id, p.targetTable.id)).Nodup
  plain : ∀ t ∈ g.tables, '_' ∉ t.name.toList

/-! ## The commands of a script -/

section Commands

variable {key : String → String} {d : Dialect} {g : Diagram}

theorem columnNames_createTable (d : Dialect) (t : Table) (ks : List KeyClause) :
    (createTable d t (ks.map .foreignKey)).columnNames = t.columns.map Column.name := by
  have hkey : (Command.createTable t.name (keyLine d t.columns)).columnNames = [] := by
    unfold keyLine
    split <;> rfl
  have hextra : (Command.createTable t.name (ks.map .foreignKey)).columnNames = [] := by
    rw [Command.columnNames, List.filterMap_map]
    exact List.filterMap_eq_nil_iff.mpr fun k _ => rfl
  have hcolumns : (Command.createTable t.name
      (t.columns.map fun c => .column c.name (columnWords d c))).columnNames = t.columns.map Column.name := by
    rw [Command.columnNames, List.filterMap_map, ← List.filterMap_eq_map]
    rfl
  rw [createTable, Command.columnNames, List.filterMap_append, List.filterMap_append]
  rw [Command.columnNames] at hkey hextra hcolumns
  rw [hcolumns, hkey, hextra, List.append_nil, List.append_nil]

theorem columnNames_tableCommand (d : Dialect) (g : Diagram) (t : Table) :
    (tableCommand d g t).columnNames = t.columns.map Column.name := by
  unfold tableCommand
  split
  · exact columnNames_createTable d t _
  · exact columnNames_createTable d t []

/-- The columns of a link table differ exactly if it links tables of different names. -/
theorem nodup_columnNames_linkTable (hk : ByParts key) (d : Dialect) (p : Resolved) :
    ((linkTable d p).columnNames.map key).Nodup ↔ key p.sourceTable.name ≠ key p.targetTable.name := by
  have hsplit (name : String) : name ++ "_id" = name ++ "_" ++ "id" := by
    rw [String.append_assoc]
    rfl
  have hnames : (linkTable d p).columnNames = [p.sourceTable.name ++ "_id", p.targetTable.name ++ "_id"] := rfl
  rw [hnames, List.map_cons, List.map_cons, List.map_nil, List.nodup_cons, List.mem_singleton, hsplit, hsplit, hk.join,
    hk.join]
  simp

/-- The tables of a diagram define nothing twice. -/
theorem definesOnce_tableCommands (hids : (g.tables.map Table.id).Nodup)
    (htables : (g.tables.map fun t => key t.name).Nodup)
    (hcolumns : ∀ t ∈ g.tables, (t.columns.map fun c => key c.name).Nodup) (d : Dialect) :
    DefinesOnce key ((tableOrder g.tables g.relationships).map (tableCommand d g)) := by
  have horder := perm_tableOrder g.relationships hids
  refine ⟨?_, fun c hc => ?_⟩
  · have hcreated : ((tableOrder g.tables g.relationships).map (tableCommand d g)).filterMap Command.created? =
        (tableOrder g.tables g.relationships).map Table.name := by
      rw [List.filterMap_map, ← List.filterMap_eq_map]
      rfl
    rw [hcreated, List.map_map]
    exact (horder.map _).nodup_iff.mpr htables
  · obtain ⟨t, ht, rfl⟩ := List.mem_map.mp hc
    rw [columnNames_tableCommand, List.map_map]
    exact hcolumns t (horder.mem_iff.mp ht)

theorem columnNames_of_mem_addKeys {c : Command} (hc : c ∈ addKeys d g) : c.columnNames = [] := by
  unfold addKeys at hc
  split at hc
  · cases hc
  · obtain ⟨p, -, rfl⟩ := List.mem_map.mp hc
    rfl

theorem tables_of_mem_linking {p : Resolved} (hp : p ∈ linking g) :
    p.sourceTable ∈ g.tables ∧ p.targetTable ∈ g.tables := by
  obtain ⟨r, -, hr⟩ := List.mem_filterMap.mp hp
  obtain ⟨⟨hs, -⟩, ht, -⟩ := Diagram.resolve_mem hr
  exact ⟨hs, ht⟩

/-- A script defines nothing twice exactly if the names of its link tables are fresh. -/
theorem definesOnce_commands_iff (hk : ByParts key) (hids : (g.tables.map Table.id).Nodup)
    (htables : (g.tables.map fun t => key t.name).Nodup)
    (hcolumns : ∀ t ∈ g.tables, (t.columns.map fun c => key c.name).Nodup) (d : Dialect) :
    DefinesOnce key (commands d g) ↔ FreshLinks key g := by
  have horder := (perm_tableOrder g.relationships hids).map fun t => key t.name
  have hcreated : ((commands d g).filterMap Command.created?).map key =
      ((tableOrder g.tables g.relationships).map fun t => key t.name) ++ (linking g).map fun p => key (linkName p) := by
    rw [created_commands, List.map_append, List.map_map, List.map_map]
    rfl
  have hself {p : Resolved} (hp : p ∈ linking g) :
      key p.sourceTable.name ≠ key p.targetTable.name ↔ p.sourceTable.id ≠ p.targetTable.id := by
    obtain ⟨hs, ht⟩ := tables_of_mem_linking hp
    refine not_congr ⟨fun h => ?_, fun h => ?_⟩
    · rw [List.inj_on_of_nodup_map htables hs ht h]
    · rw [List.inj_on_of_nodup_map hids hs ht h]
  constructor
  · intro h
    have hnames := h.tables
    rw [hcreated, List.nodup_append] at hnames
    obtain ⟨-, hlinks, hapart⟩ := hnames
    refine ⟨hlinks, fun p hp t ht he => ?_, fun p hp => ?_⟩
    · exact hapart _ (horder.mem_iff.mpr (List.mem_map_of_mem ht)) _ (List.mem_map_of_mem hp) he.symm
    · have hmem : linkTable d p ∈ commands d g := by
        rw [commands_eq]
        exact List.mem_append_left _ (List.mem_append_right _ (List.mem_map_of_mem hp))
      exact (hself hp).mp ((nodup_columnNames_linkTable hk d p).mp (h.columns _ hmem))
  · intro h
    refine ⟨?_, fun c hc => ?_⟩
    · rw [hcreated, List.nodup_append]
      refine ⟨horder.nodup_iff.mpr htables, h.distinct, fun a ha b hb he => ?_⟩
      obtain ⟨t, ht, rfl⟩ := List.mem_map.mp (horder.mem_iff.mp ha)
      obtain ⟨p, hp, rfl⟩ := List.mem_map.mp hb
      exact h.fresh p hp t ht he.symm
    · rw [commands_eq, List.mem_append, List.mem_append] at hc
      rcases hc with (hc | hc) | hc
      · exact (definesOnce_tableCommands hids htables hcolumns d).columns c hc
      · obtain ⟨p, hp, rfl⟩ := List.mem_map.mp hc
        exact (nodup_columnNames_linkTable hk d p).mpr ((hself hp).mpr (h.apart p hp))
      · rw [columnNames_of_mem_addKeys hc]
        exact List.nodup_nil

/-! ## Names without underscores -/

/-- Two names without underscores that are joined can be told from the whole. -/
theorem key_join_inj (hk : ByParts key) {a b a' b' : String} (ha : '_' ∉ a.toList) (hb : '_' ∉ b.toList)
    (h : key (a ++ "_" ++ b) = key (a' ++ "_" ++ b')) : key a = key a' ∧ key b = key b' := by
  rw [hk.join, hk.join] at h
  have hlist := congrArg String.toList h
  simp only [String.toList_append, List.append_assoc] at hlist
  obtain ⟨hfirst, -, hsecond⟩ := (List.append_cons_inj_of_notMem (hk.plain a ha) (hk.plain b hb)).mp hlist
  exact ⟨String.ext hfirst, String.ext hsecond⟩

/-- The names of link tables are fresh where no table is linked with itself or twice with another, and no name has an
underscore. -/
theorem freshLinks_of_plain (hk : ByParts key) (htables : (g.tables.map fun t => key t.name).Nodup)
    (h : PlainLinks g) : FreshLinks key g := by
  refine ⟨?_, fun p hp t ht he => ?_, h.apart⟩
  · refine List.pairwise_map.mpr ((List.pairwise_map.mp h.once).imp_of_mem fun {p q} hp hq hne he => hne ?_)
    obtain ⟨hps, hpt⟩ := tables_of_mem_linking hp
    obtain ⟨hqs, hqt⟩ := tables_of_mem_linking hq
    obtain ⟨hsource, htarget⟩ := key_join_inj hk (h.plain _ hps) (h.plain _ hpt) he
    rw [List.inj_on_of_nodup_map htables hps hqs hsource, List.inj_on_of_nodup_map htables hpt hqt htarget]
  · have hplain := hk.plain _ (h.plain t ht)
    rw [← he, linkName, hk.join] at hplain
    exact hplain (by simp)

end Commands

/-- The tables of a diagram define nothing twice in its script. With the link tables nothing is defined twice exactly if
their names are fresh, and so where no table is linked with itself or twice with another and no name has an underscore.
Names may be compared as they are or case aside. -/
theorem definesOnce_script {g : Diagram} (h : DistinctNames g) (d : Dialect) :
    ∀ key ∈ [id, nameKey],
      DefinesOnce key ((tableOrder g.tables g.relationships).map (tableCommand d g)) ∧
        (DefinesOnce key (commands d g) ↔ FreshLinks key g) ∧
        (PlainLinks g → DefinesOnce key (commands d g)) := by
  have hall {key : String → String} (hk : ByParts key) (htables : (g.tables.map fun t => key t.name).Nodup)
      (hcolumns : ∀ t ∈ g.tables, (t.columns.map fun c => key c.name).Nodup) :
      DefinesOnce key ((tableOrder g.tables g.relationships).map (tableCommand d g)) ∧
        (DefinesOnce key (commands d g) ↔ FreshLinks key g) ∧ (PlainLinks g → DefinesOnce key (commands d g)) := by
    have hiff := definesOnce_commands_iff hk h.ids htables hcolumns d
    exact ⟨definesOnce_tableCommands h.ids htables hcolumns d, hiff,
      fun hplain => hiff.mpr (freshLinks_of_plain hk htables hplain)⟩
  -- names that differ case aside differ as they are
  have hexact {α : Type} {l : List α} {name : α → String} (hn : (l.map fun a => nameKey (name a)).Nodup) :
      (l.map fun a => id (name a)).Nodup :=
    List.pairwise_map.mpr ((List.pairwise_map.mp hn).imp fun hne he => hne (congrArg nameKey he))
  intro key hkey
  rcases List.mem_pair.mp hkey with rfl | rfl
  · exact hall byParts_id (hexact h.tables) fun t ht => hexact (h.columns t ht)
  · exact hall byParts_nameKey h.tables h.columns

/-- Two tables that are linked with each other both ways round. -/
def school : Diagram where
  tables :=
    [{ id := "s", name := "Students", columns := [{ id := "a", name := "id", type := .int }] },
      { id := "c", name := "courses", columns := [{ id := "b", name := "id", type := .serial }] }]
  relationships :=
    [⟨"1", .manyToMany, ⟨"s", "a"⟩, ⟨"c", "b"⟩⟩, ⟨"2", .manyToMany, ⟨"c", "b"⟩, ⟨"s", "a"⟩⟩]

theorem definesOnce_script_school :
    DistinctNames school ∧ nameKey ∈ [id, nameKey] ∧ PlainLinks school ∧
      DefinesOnce nameKey (commands .mysql school) ∧
      (commands .mysql school).filterMap Command.created? =
        ["Students", "courses", "Students_courses", "courses_Students"] := by
  have hnames : DistinctNames school := ⟨by decide, by decide +kernel, by decide +kernel⟩
  have hplain : PlainLinks school := ⟨by decide +kernel, by decide +kernel, by decide +kernel⟩
  have hkey : nameKey ∈ [id, nameKey] := List.mem_cons_of_mem id List.mem_cons_self
  exact ⟨hnames, hkey, hplain, (definesOnce_script hnames .mysql nameKey hkey).2.2 hplain, by decide +kernel⟩

/-- A table that is linked with itself. -/
def friends : Diagram where
  tables := [{ id := "u", name := "users", columns := [{ id := "c", name := "id", type := .int }] }]
  relationships := [⟨"r", .manyToMany, ⟨"u", "c"⟩, ⟨"u", "c"⟩⟩]

/-- Its link table has two columns of one name in every dialect. -/
theorem not_definesOnce_friends :
    DistinctNames friends ∧ (friends.relationships.map fun r => (r.source, r.target)).Nodup ∧
      ∀ d, (∃ c ∈ commands d friends, c.columnNames = ["users_id", "users_id"]) ∧
        ¬ DefinesOnce id (commands d friends) := by
  have htwice (d : Dialect) : ∃ c ∈ commands d friends, c.columnNames = ["users_id", "users_id"] := by
    cases d <;> decide +kernel
  refine ⟨⟨by decide, by decide +kernel, by decide +kernel⟩, by decide, fun d => ⟨htwice d, fun honce => ?_⟩⟩
  obtain ⟨c, hc, hnames⟩ := htwice d
  have hnodup := honce.columns c hc
  rw [hnames] at hnodup
  exact absurd hnodup (by decide)

end Sql

end Erd
