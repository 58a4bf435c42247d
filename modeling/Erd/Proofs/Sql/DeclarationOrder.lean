import Erd.Proofs.Sql.Layout
import Erd.Proofs.Sql.Linking

/-!
# The order of declarations

A foreign key may refer to a table that is defined later, and a key may be declared before or after the
columns that it is made of. The order of the statements of a script only gives its tables and relationships
another order, and the order in which keys stand in a body only gives the relationships another order.

The end of a body is looked for without regard to quotes, the commas in it with regard to them. So a
parenthesis in a literal may end a body too early, and a key that is moved behind it is lost. Keys are free to
move in a body that ends where it would end with quotes heeded.

**Results.**
* `tablesOf_join`, `faultsOf_join_cons`: a script is read text by text.
* `tablesOf_perm`: statements in another order define the same tables.
* `declaration_order`: neither the order of statements nor the place of keys matters.
-/
namespace Erd.Sql

open Text

/-! ## Scripts of several texts -/

theorem toList_intercalate (us : List String) :
    (";".intercalate us).toList = join ';' (us.map String.toList) := by
  rw [String.toList_intercalate]
  generalize us.map String.toList = ss
  induction ss with
  | nil => rfl
  | cons s ss ih =>
    cases ss with
    | nil => simp [join]
    | cons t ts =>
      rw [join_cons (by simp), ← ih]
      simp

section Join

variable {s t : List Char} {ss : List (List Char)}

theorem uncommented_join (h : ∀ s ∈ ss, Uncommented s) : Uncommented (join ';' ss) := by
  refine ⟨fun hi => ?_, fun hi => ?_⟩
  · obtain ⟨s, hs, hi⟩ := pair_infix_join (by decide) (by decide) hi
    exact (h s hs).1 hi
  · obtain ⟨s, hs, hi⟩ := pair_infix_join (by decide) (by decide) hi
    exact (h s hs).2 hi

theorem tablesOf_join (h : ∀ s ∈ ss, Uncommented s) : tablesOf (join ';' ss) = ss.flatMap tablesOf := by
  induction ss with
  | nil => rfl
  | cons s ss ih =>
    obtain ⟨hs, hss⟩ := List.forall_mem_cons.mp h
    cases ss with
    | nil => simp [join]
    | cons t ts =>
      rw [join_cons (by simp), tablesOf_append hs (uncommented_join hss), ih hss]
      rfl

theorem faultsOf_join_cons (hs : Uncommented s) (h : ∀ s ∈ ss, Uncommented s) :
    faultsOf (join ';' (s :: ss)) = faultsOf s ++ (faultsOf (join ';' ss)).map (later (newlines s)) := by
  cases ss with
  | nil => exact (List.append_nil _).symm
  | cons t ts => rw [join_cons (by simp), faultsOf_append hs (uncommented_join h)]

/-- A text can be exchanged for another with the same faults, if it has as many lines or no text behind it has a
fault. -/
theorem faultsOf_join_congr (hs : Uncommented s) (ht : Uncommented t) (hf : faultsOf t = faultsOf s)
    {before after : List (List Char)} (hn : newlines t = newlines s ∨ faultsOf (join ';' after) = [])
    (hb : ∀ u ∈ before, Uncommented u) (ha : ∀ u ∈ after, Uncommented u) :
    faultsOf (join ';' (before ++ t :: after)) = faultsOf (join ';' (before ++ s :: after)) := by
  induction before with
  | nil =>
    rw [List.nil_append, List.nil_append, faultsOf_join_cons ht ha, faultsOf_join_cons hs ha, hf]
    rcases hn with hn | hn
    · rw [hn]
    · rw [hn, List.map_nil, List.map_nil]
  | cons u us ih =>
    obtain ⟨hu, hus⟩ := List.forall_mem_cons.mp hb
    have hall {v : List Char} (hv : Uncommented v) : ∀ w ∈ us ++ v :: after, Uncommented w := by
      intro w hw
      rcases List.mem_append.mp hw with hw | hw
      · exact hus w hw
      · exact (List.forall_mem_cons (p := Uncommented)).mpr ⟨hv, ha⟩ w hw
    rw [List.cons_append, List.cons_append, faultsOf_join_cons hu (hall ht), faultsOf_join_cons hu (hall hs),
      ih hus]

end Join

/-! ## Statements in another order -/

/-- The statements of a script, each a text without a semicolon, are those that are not blank. -/
theorem chunks_join {ss : List (List Char)} (h : ∀ s ∈ ss, Uncommented s ∧ ';' ∉ s) :
    (chunks (join ';' ss)).map trim = (ss.map trim).filter fun t => !t.isEmpty := by
  have hchunks : chunks (join ';' ss) = ss.filter fun s => !isBlankText s := by
    rw [chunks, stripComments_eq_self (uncommented_join fun s hs => (h s hs).1)]
    by_cases hne : ss = []
    · rw [hne]
      rfl
    · rw [splitOn_join hne fun s hs => (h s hs).2]
  rw [hchunks, List.filter_map]
  refine congrArg (List.map trim) (List.filter_congr fun s _ => ?_)
  rw [Function.comp_apply, isEmpty_trim]

section Statements

variable {ss ts : List (List Char)} (h : ∀ s ∈ ts ++ ss, Uncommented s ∧ ';' ∉ s)
  (hp : (ss.map trim).Perm (ts.map trim))

include h hp

theorem chunks_perm : ((chunks (join ';' ss)).map trim).Perm ((chunks (join ';' ts)).map trim) := by
  obtain ⟨hts, hss⟩ := List.forall_mem_append.mp h
  rw [chunks_join hss, chunks_join hts]
  exact hp.filter _

/-- Statements in another order, whatever the blanks around them, define the same tables. -/
theorem tablesOf_perm : (tablesOf (join ';' ss)).Perm (tablesOf (join ';' ts)) := by
  have hread (s : List Char) : tablesOf s =
      ((chunks s).map trim).filterMap fun t => (TableDefinition.read t).toOption := by
    rw [tablesOf_eq, List.filterMap_map]
    rfl
  rw [hread, hread]
  exact (chunks_perm h hp).filterMap _

/-- As many of them have a fault. -/
theorem length_faultsOf_perm : (faultsOf (join ';' ss)).length = (faultsOf (join ';' ts)).length := by
  have hchunks := (chunks_perm h hp).length_eq
  have htables := (tablesOf_perm h hp).length_eq
  have hs := length_tablesOf_add (join ';' ss)
  have ht := length_tablesOf_add (join ';' ts)
  rw [List.length_map, List.length_map] at hchunks
  omega

end Statements

/-! ## Keys that move in a statement -/

theorem shuffled_of_moved {ds es : List Definition} (h : Moved Definition.isKey ds es) (name : String) :
    Shuffled ⟨name, ds⟩ ⟨name, es⟩ :=
  ⟨congrArg (Outline.Table.mk name) (columns_moved h), references_moved h⟩

section Moved

variable {l : Layout} {ys : List (List Char)} (hl : l.Sound) (hm : Moved isKeyText l.items ys)
  (hu : Uncommented l.text) (hsep : ';' ∉ l.text)

include hl hm hu hsep

theorem tablesOf_moved : List.Forall₂ Shuffled (tablesOf l.text) (tablesOf (l.withItems ys).text) := by
  obtain ⟨line, name, ds, es, hde, hl, hy⟩ := Layout.outcomes_moved hl hm hu hsep
  rw [tablesOf, tablesOf, hl, hy]
  cases name with
  | error f => exact List.Forall₂.nil
  | ok n => exact .cons (shuffled_of_moved hde n) .nil

theorem faultsOf_moved : faultsOf (l.withItems ys).text = faultsOf l.text := by
  obtain ⟨line, name, ds, es, -, hl, hy⟩ := Layout.outcomes_moved hl hm hu hsep
  rw [faultsOf, faultsOf, hl, hy]
  cases name <;> rfl

end Moved

/-! ## Readings -/

/-- Two readings of the same tables and relationships, each in an order of its own: the tables without their
ids and positions, and the relationships by the names at their ends. -/
structure Reordered (q r : Reading) : Prop where
  tables : (r.diagram.tables.map Table.outline).Perm (q.diagram.tables.map Table.outline)
  relationships : (r.diagram.relationships.map r.diagram.named?).Perm
    (q.diagram.relationships.map q.diagram.named?)
  intact : q.diagram.Intact ∧ r.diagram.Intact
  diagnostics : r.diagnostics.length = q.diagnostics.length

/-- Two readings of the same tables, in which only the relationships may stand in another order. -/
structure Relinked (q r : Reading) : Prop where
  tables : r.diagram.tables = q.diagram.tables
  relationships : (r.diagram.relationships.map r.diagram.named?).Perm
    (q.diagram.relationships.map q.diagram.named?)
  intact : q.diagram.Intact ∧ r.diagram.Intact
  diagnostics : r.diagnostics = q.diagnostics

section Draw

variable {ts us : List TableDefinition} {s : Outline.Sheet} {ps qs : List Diagnostic}

theorem namedLinks_draw_outline (ts : List TableDefinition) (s : Outline.Sheet) :
    ((outline ts).draw s).relationships.map ((outline ts).draw s).named? =
      (outline ts).links.map (outline ts).named? :=
  Outline.namedLinks_draw (linked_outline ts)

theorem reordered_of_perm (h : us.Perm ts) (hd : Outline.DistinctTables (ts.map TableDefinition.outline))
    (hp : ps.length = qs.length) :
    Reordered ⟨(outline ts).draw s, qs⟩ ⟨(outline us).draw s, ps⟩ := by
  obtain ⟨htables, hlinks⟩ := outline_perm h hd
  refine ⟨?_, ?_, ⟨Outline.intact_draw (linked_outline ts) s, Outline.intact_draw (linked_outline us) s⟩, hp⟩
  · rw [Outline.outlines_draw, Outline.outlines_draw]
    exact htables
  · rw [namedLinks_draw_outline, namedLinks_draw_outline]
    exact hlinks

theorem relinked_of_shuffled (h : List.Forall₂ Shuffled ts us) (hp : ps = qs) :
    Relinked ⟨(outline ts).draw s, qs⟩ ⟨(outline us).draw s, ps⟩ := by
  obtain ⟨htables, hlinks⟩ := outline_shuffled h
  refine ⟨congrArg (List.mapIdx s.table) htables, ?_,
    ⟨Outline.intact_draw (linked_outline ts) s, Outline.intact_draw (linked_outline us) s⟩, hp⟩
  rw [namedLinks_draw_outline, namedLinks_draw_outline]
  exact hlinks

end Draw

/-- Statements may stand in any order and with any blanks around them if the names of their tables differ by more
than case, and keys may stand anywhere among the definitions of a body that is sound. -/
theorem declaration_order {s : Outline.Sheet} (hs : s.grid.columns ≠ 0) (d : Dialect) :
    (∀ us vs : List String, (∀ u ∈ us ++ vs, Uncommented u.toList ∧ ';' ∉ u.toList) →
      (vs.map fun v => trim v.toList).Perm (us.map fun u => trim u.toList) →
        ∃ q r, read s d (";".intercalate us) = .ok q ∧ read s d (";".intercalate vs) = .ok r ∧
          ((q.diagram.tables.map fun t => nameKey t.name).Nodup → Reordered q r)) ∧
      ∀ (before after : List String) (l : Layout) (ys : List (List Char)),
        (∀ u ∈ before ++ after, Uncommented u.toList) → Uncommented l.text → ';' ∉ l.text → l.Sound →
          Moved isKeyText l.items ys →
            ∃ q r, read s d (";".intercalate (before ++ String.ofList l.text :: after)) = .ok q ∧
              read s d (";".intercalate (before ++ String.ofList (l.withItems ys).text :: after)) = .ok r ∧
                Relinked q r := by
  constructor
  · intro us vs hu hp
    refine ⟨_, _, read_eq d _ hs, read_eq d _ hs, fun hn => ?_⟩
    have huv : ∀ u ∈ us.map String.toList ++ vs.map String.toList, Uncommented u ∧ ';' ∉ u := by
      rw [← List.map_append]
      exact List.forall_mem_map.mpr hu
    have htrim : ((vs.map String.toList).map trim).Perm ((us.map String.toList).map trim) := by
      rw [List.map_map, List.map_map]
      exact hp
    refine reordered_of_perm ?_ ?_ ?_
    · rw [toList_intercalate, toList_intercalate]
      exact tablesOf_perm huv htrim
    · have hnames := names_draw_outline (tablesOf (";".intercalate us).toList) s
      have hkeys := congrArg (List.map nameKey) hnames
      rw [List.map_map, List.map_map] at hkeys
      rw [Outline.DistinctTables, List.map_map]
      exact hkeys ▸ hn
    · rw [List.length_map, List.length_map, toList_intercalate, toList_intercalate]
      exact length_faultsOf_perm huv htrim
  · intro before after l ys h hu hsep hl hm
    refine ⟨_, _, read_eq d _ hs, read_eq d _ hs, ?_⟩
    obtain ⟨hbefore, hafter⟩ := List.forall_mem_append.mp h
    have hb : ∀ u ∈ before.map String.toList, Uncommented u := List.forall_mem_map.mpr hbefore
    have ha : ∀ u ∈ after.map String.toList, Uncommented u := List.forall_mem_map.mpr hafter
    have hu' := Layout.uncommented_perm hm.perm hu
    have hall {t : List Char} (ht : Uncommented t) :
        ∀ u ∈ before.map String.toList ++ t :: after.map String.toList, Uncommented u :=
      List.forall_mem_append.mpr ⟨hb, List.forall_mem_cons.mpr ⟨ht, ha⟩⟩
    have hscript (t : List Char) : (";".intercalate (before ++ String.ofList t :: after)).toList =
        join ';' (before.map String.toList ++ t :: after.map String.toList) := by
      rw [toList_intercalate, List.map_append, List.map_cons, String.toList_ofList]
    rw [hscript, hscript]
    refine relinked_of_shuffled ?_ ?_
    · rw [tablesOf_join (hall hu), tablesOf_join (hall hu'), List.flatMap_append, List.flatMap_append,
        List.flatMap_cons, List.flatMap_cons]
      have hrefl (ts : List TableDefinition) : List.Forall₂ Shuffled ts ts :=
        List.forall₂_same.mpr fun t _ => Shuffled.refl t
      exact List.rel_append (hrefl _) (List.rel_append (tablesOf_moved hl hm hu hsep) (hrefl _))
    · rw [faultsOf_join_congr hu hu' (faultsOf_moved hl hm hu hsep) (.inl ((Layout.text_perm hm.perm).count_eq _)) hb ha]

/-! ## Examples -/

/-- A table that refers to one that is defined after it. -/
def postsStatement : String := "CREATE TABLE posts (id INT PRIMARY KEY, author INT REFERENCES users(id))"

/-- The table that it refers to, with keys after the columns and a comma in a literal. -/
def usersLayout : Layout :=
  ⟨"\nCREATE TABLE users ".toList,
    ["id INT".toList, " name TEXT DEFAULT ','".toList, " PRIMARY KEY (id)".toList, " UNIQUE (name)".toList],
    "\n".toList⟩

/-- Its body with the keys around the columns. -/
def usersMoved : List (List Char) :=
  [" UNIQUE (name)".toList, "id INT".toList, " PRIMARY KEY (id)".toList, " name TEXT DEFAULT ','".toList]

theorem sound_usersLayout : usersLayout.Sound :=
  ⟨by decide +kernel, by decide +kernel, by decide +kernel, by decide +kernel⟩

theorem declaration_order_posts : ({} : Outline.Sheet).grid.columns ≠ 0 ∧
    (∃ q r, read {} .mysql (";".intercalate [postsStatement, String.ofList usersLayout.text]) = .ok q ∧
      read {} .mysql (";".intercalate [String.ofList usersLayout.text, postsStatement]) = .ok r ∧
        (q.diagram.tables.map fun t => nameKey t.name).Nodup ∧ Reordered q r) ∧
      ∃ q r, read {} .mysql (";".intercalate [postsStatement, String.ofList usersLayout.text]) = .ok q ∧
        read {} .mysql (";".intercalate [postsStatement, String.ofList (usersLayout.withItems usersMoved).text]) =
          .ok r ∧ Relinked q r := by
  have hs : ({} : Outline.Sheet).grid.columns ≠ 0 := by decide
  obtain ⟨hstatements, hkeys⟩ := declaration_order hs .mysql
  have hposts : Uncommented postsStatement.toList := ⟨by decide +kernel, by decide +kernel⟩
  have husers : Uncommented usersLayout.text := ⟨by decide +kernel, by decide +kernel⟩
  have hsep : ';' ∉ postsStatement.toList ∧ ';' ∉ usersLayout.text := by decide +kernel
  have hscript : ∀ u ∈ [postsStatement, String.ofList usersLayout.text] ++
      [String.ofList usersLayout.text, postsStatement], Uncommented u.toList ∧ ';' ∉ u.toList := by
    simp [hposts, husers, hsep]
  have hmoved : Moved isKeyText usersLayout.items usersMoved := by decide +kernel
  refine ⟨hs, ?_, ?_⟩
  · obtain ⟨q, r, hq, hr, h⟩ := hstatements [postsStatement, String.ofList usersLayout.text]
      [String.ofList usersLayout.text, postsStatement] hscript (List.Perm.swap _ _ _)
    have hn : (q.diagram.tables.map fun t => nameKey t.name).Nodup := by
      obtain rfl := Except.ok.inj ((read_eq .mysql _ hs).symm.trans hq)
      decide +kernel
    exact ⟨q, r, hq, hr, hn, h hn⟩
  · exact hkeys [postsStatement] [] usersLayout usersMoved (by simpa using hposts) husers hsep.2 sound_usersLayout
      hmoved

/-- A table with a unique constraint in front of a literal that holds a parenthesis. -/
def smileyLayout : Layout :=
  ⟨"CREATE TABLE t ".toList, ["a INT".toList, " UNIQUE (a)".toList, " b TEXT DEFAULT ':)'".toList], []⟩

/-- Its body with the constraint behind the literal. -/
def smileyMoved : List (List Char) := ["a INT".toList, " b TEXT DEFAULT ':)'".toList, " UNIQUE (a)".toList]

/-- The literal is closed and the constraint enclosed, but the body is taken to end in the literal: without a
complaint the column is unique if the constraint stands in front of the literal, and not if it stands behind. -/
theorem not_declaration_order_smiley : (∀ x ∈ smileyLayout.items, Settled x) ∧
    Moved isKeyText smileyLayout.items smileyMoved ∧ Uncommented smileyLayout.text ∧ ';' ∉ smileyLayout.text ∧
      ∃ q r, read {} .postgresql (String.ofList smileyLayout.text) = .ok q ∧
        read {} .postgresql (String.ofList (smileyLayout.withItems smileyMoved).text) = .ok r ∧
          q.diagnostics = [] ∧ r.diagnostics = [] ∧
            r.diagram.tables.map Table.outline ≠ q.diagram.tables.map Table.outline := by
  have hs : ({} : Outline.Sheet).grid.columns ≠ 0 := by decide
  exact ⟨by decide +kernel, by decide +kernel, ⟨by decide +kernel, by decide +kernel⟩, by decide +kernel, _, _,
    read_eq _ _ hs, read_eq _ _ hs, by decide +kernel, by decide +kernel, by decide +kernel⟩

end Erd.Sql
