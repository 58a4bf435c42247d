import Erd.Proofs.Outline
import Erd.Proofs.Text
import Erd.Sql.Reader
import Mathlib.Data.List.Infix

/-!
# Statements are read one by one

What stands after a semicolon is read as it would be alone, only on later lines. So a script between two
semicolons can be taken out: the tables that it defines and the complaints about it go, the complaints
after it move up by its lines, and nothing else changes. Comments are left aside here, since one that
starts in a script may swallow what follows it.

**Results.**
* `texts_statements`: the statements are the pieces between the semicolons that are not blank.
* `outcomes_append`: two scripts with a semicolon between them come to what each comes to, the second on
  later lines.
* `isolated`: every statement gives a table or a diagnostic, and a bad one changes nothing else.
-/
namespace Erd.Sql

open Text

/-! ## Scripts without comments -/

/-- The text holds none of the marks that start a comment. -/
def Uncommented (s : List Char) : Prop := ¬ ['-', '-'] <:+: s ∧ ¬ ['/', '*'] <:+: s

theorem uncommented_of_not_mem {s : List Char} (hd : '-' ∉ s) (hb : '/' ∉ s) : Uncommented s :=
  ⟨fun h => hd (h.subset List.mem_cons_self), fun h => hb (h.subset List.mem_cons_self)⟩

theorem dropBlocks_eq_self {s : List Char} (h : ¬ ['/', '*'] <:+: s) : dropBlocks s = s := by
  unfold dropBlocks
  induction s with
  | nil => rfl
  | cons c s ih =>
    rw [dropBlocksFrom, ih fun hs => h (List.infix_cons hs)]
    rintro t rfl rfl
    exact h (List.prefix_append ['/', '*'] t).isInfix

theorem dropLineComments_eq_self {s : List Char} (h : ¬ ['-', '-'] <:+: s) : dropLineComments s = s := by
  unfold dropLineComments
  induction s with
  | nil => rfl
  | cons c s ih =>
    rw [dropLineCommentsFrom, ih fun hs => h (List.infix_cons hs)]
    rintro t rfl rfl
    exact h (List.prefix_append ['-', '-'] t).isInfix

theorem stripComments_eq_self {s : List Char} (h : Uncommented s) : stripComments s = s := by
  rw [stripComments, dropBlocks_eq_self h.2, dropLineComments_eq_self h.1]

/-- Two characters side by side do not stand on both sides of a separator. -/
theorem pair_infix_append {a b sep : Char} (ha : a ≠ sep) (hb : b ≠ sep) {s t : List Char}
    (h : [a, b] <:+: s ++ sep :: t) : [a, b] <:+: s ∨ [a, b] <:+: t := by
  induction s with
  | nil =>
    rcases List.infix_cons_iff.mp h with h | h
    · exact absurd (List.cons_prefix_cons.mp h).1 ha
    · exact .inr h
  | cons c s ih =>
    rcases List.infix_cons_iff.mp h with h | h
    · obtain ⟨rfl, hp⟩ := List.cons_prefix_cons.mp h
      cases s with
      | nil => exact absurd (List.cons_prefix_cons.mp hp).1 hb
      | cons d s =>
        obtain rfl := (List.cons_prefix_cons.mp hp).1
        exact .inl (List.prefix_append [a, b] s).isInfix
    · exact (ih h).imp_left List.infix_cons

theorem Uncommented.append {s t : List Char} (hs : Uncommented s) (ht : Uncommented t) :
    Uncommented (s ++ ';' :: t) :=
  ⟨fun h => (pair_infix_append (by decide) (by decide) h).elim hs.1 ht.1,
    fun h => (pair_infix_append (by decide) (by decide) h).elim hs.2 ht.2⟩

/-! ## Statements and their lines -/

theorem newlines_append (s t : List Char) : newlines (s ++ t) = newlines s + newlines t := List.count_append

/-- The line feeds of a text are those of its pieces. -/
theorem newlines_flatten_splitOn {sep : Char} (h : sep ≠ '\n') (s : List Char) :
    newlines (splitOn sep s).flatten = newlines s := by
  induction s with
  | nil => rfl
  | cons c s ih =>
    rw [splitOn]
    split
    · next hc =>
      subst hc
      simpa [newlines, h] using ih
    · split
      · next piece pieces hp =>
        rw [hp] at ih
        simp only [newlines, List.flatten_cons, List.cons_append, List.count_cons] at ih ⊢
        rw [ih]
      · next hp => exact absurd hp (splitOn_ne_nil sep s)

/-- The statement `k` lines further down. -/
def Statement.later (k : Nat) (s : Statement) : Statement := { s with line := s.line + k }

theorem statementsFrom_append (line : Nat) (ps qs : List (List Char)) :
    statementsFrom line (ps ++ qs) =
      statementsFrom line ps ++ statementsFrom (line + newlines ps.flatten) qs := by
  induction ps generalizing line with
  | nil => rfl
  | cons p ps ih =>
    simp only [List.cons_append, statementsFrom, ih, List.flatten_cons, newlines_append, Nat.add_assoc]
    split <;> rfl

theorem statementsFrom_later (line k : Nat) (ps : List (List Char)) :
    statementsFrom (line + k) ps = (statementsFrom line ps).map (Statement.later k) := by
  induction ps generalizing line with
  | nil => rfl
  | cons p ps ih =>
    simp only [statementsFrom, Nat.add_right_comm line k, ih]
    split <;> rfl

theorem statements_append {s t : List Char} (hs : Uncommented s) (ht : Uncommented t) :
    statements (s ++ ';' :: t) = statements s ++ (statements t).map (Statement.later (newlines s)) := by
  rw [statements, statements, statements, stripComments_eq_self (hs.append ht), stripComments_eq_self hs,
    stripComments_eq_self ht, splitOn_append_sep, statementsFrom_append, newlines_flatten_splitOn (by decide),
    statementsFrom_later]

/-- The pieces between the semicolons of a script that are not blank. -/
def chunks (script : List Char) : List (List Char) :=
  (splitOn ';' (stripComments script)).filter fun p => !isBlankText p

theorem texts_statementsFrom (line : Nat) (ps : List (List Char)) :
    (statementsFrom line ps).map Statement.text = (ps.filter fun p => !isBlankText p).map trim := by
  induction ps generalizing line with
  | nil => rfl
  | cons p ps ih =>
    rw [statementsFrom, List.filter_cons]
    cases isBlankText p <;> simp [ih]

/-- The statements are the pieces that are not blank, without the blanks around them. -/
theorem texts_statements (script : List Char) :
    (statements script).map Statement.text = (chunks script).map trim := texts_statementsFrom 1 _

/-! ## What scripts come to -/

/-- The outcome `k` lines further down. -/
def Outcome.later (k : Nat) (o : Outcome) : Outcome := { o with line := o.line + k }

/-- What is wrong with a statement, with its line. -/
def Outcome.fault? (o : Outcome) : Option (Nat × StatementFault) :=
  match o.result with
  | .ok _ => none
  | .error f => some (o.line, f)

/-- The tables that a script defines. -/
def tablesOf (script : List Char) : List TableDefinition := (outcomes script).filterMap Outcome.table?

/-- What is wrong with the statements of a script. -/
def faultsOf (script : List Char) : List (Nat × StatementFault) := (outcomes script).filterMap Outcome.fault?

/-- What is wrong, `k` lines further down. -/
def later (k : Nat) (q : Nat × StatementFault) : Nat × StatementFault := (q.1 + k, q.2)

theorem later_comp (k l : Nat) : later k ∘ later l = later (k + l) := by
  funext ⟨line, f⟩
  simp [later, Nat.add_left_comm, Nat.add_comm]

/-- The diagnostic of a fault, which tells its line. -/
def complaint (dialect : Dialect) (q : Nat × StatementFault) : Diagnostic :=
  ⟨q.1, q.2.message dialect q.1⟩

/-- Two scripts with a semicolon between them come to what each comes to, the second on later lines. -/
theorem outcomes_append {s t : List Char} (hs : Uncommented s) (ht : Uncommented t) :
    outcomes (s ++ ';' :: t) = outcomes s ++ (outcomes t).map (Outcome.later (newlines s)) := by
  rw [outcomes, statements_append hs ht, List.map_append, List.map_map, outcomes, outcomes, List.map_map]
  rfl

theorem tablesOf_append {s t : List Char} (hs : Uncommented s) (ht : Uncommented t) :
    tablesOf (s ++ ';' :: t) = tablesOf s ++ tablesOf t := by
  rw [tablesOf, outcomes_append hs ht, List.filterMap_append, List.filterMap_map]
  rfl

theorem faultsOf_append {s t : List Char} (hs : Uncommented s) (ht : Uncommented t) :
    faultsOf (s ++ ';' :: t) = faultsOf s ++ (faultsOf t).map (later (newlines s)) := by
  have hlater (o : Outcome) : (o.later (newlines s)).fault? = o.fault?.map (later (newlines s)) := by
    obtain ⟨line, result⟩ := o
    cases result <;> rfl
  rw [faultsOf, outcomes_append hs ht, List.filterMap_append, filterMap_map_of_comm hlater]
  rfl

/-- Each outcome is a table or a fault. -/
theorem length_tablesOf_add (script : List Char) :
    (tablesOf script).length + (faultsOf script).length = (chunks script).length := by
  have hlength : (chunks script).length = (outcomes script).length := by
    rw [outcomes, List.length_map, ← List.length_map (f := Statement.text), texts_statements, List.length_map]
  rw [hlength, tablesOf, faultsOf]
  induction outcomes script with
  | nil => rfl
  | cons o os ih =>
    obtain ⟨line, result⟩ := o
    cases result <;>
      simp only [List.filterMap_cons, Outcome.table?, Outcome.fault?, List.length_cons] <;> omega

/-- The tables are those that the pieces define, in their order. -/
theorem tablesOf_eq (script : List Char) :
    tablesOf script = (chunks script).filterMap fun p => (TableDefinition.read (trim p)).toOption := by
  have htable : Outcome.table? = (fun r : Except StatementFault TableDefinition => r.toOption) ∘
      Outcome.result := by
    funext ⟨line, result⟩
    cases result <;> rfl
  have htexts := congrArg (List.filterMap fun t => (TableDefinition.read t).toOption) (texts_statements script)
  rw [List.filterMap_map, List.filterMap_map] at htexts
  rw [tablesOf, outcomes, List.filterMap_map, htable]
  exact htexts

/-- A script without a semicolon is at most one statement. -/
theorem outcomes_of_no_semicolon {s : List Char} (h : Uncommented s) (hs : ';' ∉ s) :
    outcomes s = [] ∨ ∃ o, outcomes s = [o] := by
  rw [outcomes, statements, stripComments_eq_self h, splitOn_eq_self hs, statementsFrom]
  split
  · exact .inl rfl
  · exact .inr ⟨_, rfl⟩

/-- A statement with a fault defines no table and has no other fault. -/
theorem outcomes_of_fault {s : List Char} (h : Uncommented s) (hs : ';' ∉ s) (hf : faultsOf s ≠ []) :
    ∃ q, faultsOf s = [q] ∧ tablesOf s = [] := by
  unfold faultsOf tablesOf at *
  rcases outcomes_of_no_semicolon h hs with ho | ⟨⟨line, result⟩, ho⟩
  · rw [ho] at hf
    exact absurd rfl hf
  · rw [ho] at hf ⊢
    cases result with
    | ok t => exact absurd rfl hf
    | error f => exact ⟨(line, f), rfl, rfl⟩

/-! ## Drafts -/

theorem outcomes_blank {s : List Char} (h : isBlankText s = true) : outcomes s = [] := by
  have hne {c : Char} (hc : isBlank c = false) : c ∉ s := fun hm =>
    absurd (List.all_eq_true.mp h c hm) (by simp [hc])
  have hu := uncommented_of_not_mem (s := s) (hne (by decide)) (hne (by decide))
  rw [outcomes, statements, stripComments_eq_self hu, splitOn_eq_self (hne (by decide)), statementsFrom, if_pos h]
  rfl

section Draft

variable (dialect : Dialect) (script : String)

theorem outline_draft : (draft dialect script).outline = outline (tablesOf script.toList) := by
  unfold draft
  split
  · next h =>
    rw [tablesOf, outcomes_blank h]
    rfl
  · rfl

theorem diagnostics_draft :
    (draft dialect script).diagnostics = (faultsOf script.toList).map (complaint dialect) := by
  unfold draft
  split
  · next h =>
    rw [faultsOf, outcomes_blank h]
    rfl
  · rw [faultsOf, List.map_filterMap]
    refine congrArg (List.filterMap · (outcomes script.toList)) (funext fun ⟨line, result⟩ => ?_)
    cases result <;> rfl

theorem read_eq {s : Outline.Sheet} (hs : s.grid.columns ≠ 0) : read s dialect script =
    .ok ⟨(outline (tablesOf script.toList)).draw s, (faultsOf script.toList).map (complaint dialect)⟩ := by
  rw [read, Draft.reading_eq hs, outline_draft, diagnostics_draft]

end Draft

/-- Linking renames no table. -/
theorem names_outline (tables : List TableDefinition) :
    (outline tables).tables.map Outline.Table.name = tables.map TableDefinition.name := by
  refine List.ext_getElem (by simp [outline]) fun i hi hi' => ?_
  simp [outline, markLinked, TableDefinition.outline]

theorem names_draw_outline (tables : List TableDefinition) (s : Outline.Sheet) :
    ((outline tables).draw s).tables.map Table.name = tables.map TableDefinition.name := by
  rw [Outline.names_draw, names_outline]

/-! ## Isolation -/

/-- Every piece of a script that is not blank gives a table or a diagnostic, the tables in their order. -/
structure Conserves (script : String) (r : Reading) : Prop where
  length : r.diagram.tables.length + r.diagnostics.length = (chunks script.toList).length
  tables : r.diagram.tables.map Table.name =
    ((chunks script.toList).filterMap fun p => (TableDefinition.read (trim p)).toOption).map
      TableDefinition.name

/-- A statement `g` between the scripts `a` and `b`, read as a whole and without it: it has one diagnostic
and disturbs nothing. The diagram is that of the two scripts, and their diagnostics are those that each has
on its own, moved down by the lines before it. -/
structure Isolates (s : Outline.Sheet) (dialect : Dialect) (a g b : String) (whole rest : Reading) :
    Prop where
  diagram : whole.diagram = rest.diagram
  diagnostics : ∃ (before : List (Nat × StatementFault)) (bad : Nat × StatementFault)
      (after : List (Nat × StatementFault)),
    (read s dialect a).map Reading.diagnostics = .ok (before.map (complaint dialect)) ∧
    (read s dialect g).map Reading.diagnostics = .ok [complaint dialect bad] ∧
    (read s dialect b).map Reading.diagnostics = .ok (after.map (complaint dialect)) ∧
    rest.diagnostics =
      (before ++ after.map (later (newlines a.toList))).map (complaint dialect) ∧
    whole.diagnostics = (before ++ later (newlines a.toList) bad ::
      after.map (later (newlines a.toList + newlines g.toList))).map (complaint dialect)

theorem conserves_read (dialect : Dialect) (script : String) (s : Outline.Sheet) : Conserves script
    ⟨(outline (tablesOf script.toList)).draw s, (faultsOf script.toList).map (complaint dialect)⟩ := by
  have hnames := names_draw_outline (tablesOf script.toList) s
  refine ⟨?_, ?_⟩
  · have := congrArg List.length hnames
    rw [List.length_map, List.length_map] at this
    rw [this, List.length_map, length_tablesOf_add]
  · rw [hnames, tablesOf_eq]

/-- Every statement gives a table or a diagnostic, and a bad one disturbs nothing around it. -/
theorem isolated {s : Outline.Sheet} (hs : s.grid.columns ≠ 0) (dialect : Dialect) :
    (∀ script, ∃ r, read s dialect script = .ok r ∧ Conserves script r) ∧
      ∀ a g b : String, Uncommented a.toList → Uncommented g.toList → Uncommented b.toList →
        ';' ∉ g.toList → (∃ r, read s dialect g = .ok r ∧ r.diagnostics ≠ []) →
          ∃ whole rest, read s dialect (a ++ ";" ++ g ++ ";" ++ b) = .ok whole ∧
            read s dialect (a ++ ";" ++ b) = .ok rest ∧ Isolates s dialect a g b whole rest := by
  refine ⟨fun script => ⟨_, read_eq dialect script hs, conserves_read dialect script s⟩, ?_⟩
  intro a g b ha hg hb hsep hbad
  obtain ⟨q, hq, htables⟩ : ∃ q, faultsOf g.toList = [q] ∧ tablesOf g.toList = [] := by
    obtain ⟨r, hr, hne⟩ := hbad
    rw [read_eq dialect g hs] at hr
    cases hr
    exact outcomes_of_fault hg hsep fun h => hne (by rw [h]; rfl)
  have hwhole : (a ++ ";" ++ g ++ ";" ++ b).toList = a.toList ++ ';' :: (g.toList ++ ';' :: b.toList) := by
    simp
  have hrest : (a ++ ";" ++ b).toList = a.toList ++ ';' :: b.toList := by simp
  refine ⟨_, _, read_eq dialect _ hs, read_eq dialect _ hs, ?_, faultsOf a.toList, q, faultsOf b.toList,
    ?_, ?_, ?_, ?_, ?_⟩
  · rw [hwhole, hrest, tablesOf_append ha (hg.append hb), tablesOf_append hg hb, tablesOf_append ha hb,
      htables, List.nil_append]
  · rw [read_eq dialect a hs]
    rfl
  · rw [read_eq dialect g hs, hq]
    rfl
  · rw [read_eq dialect b hs]
    rfl
  · rw [hrest, faultsOf_append ha hb]
  · rw [hwhole, faultsOf_append ha (hg.append hb), faultsOf_append hg hb, hq, List.singleton_append,
      List.map_cons, List.map_map, later_comp]

/-- A script with a table. -/
def authorsScript : String := "CREATE TABLE authors (id INT);\n\nSELECT 1"

/-- A statement that defines no table since its body is not closed. -/
def tornStatement : String := "\nCREATE TABLE torn (id INT\n"

/-- A script with a table that refers to the one of the script before it. -/
def booksScript : String := "\nCREATE TABLE books (author INT REFERENCES authors(id));\nSELECT 2"

theorem isolated_torn : ({} : Outline.Sheet).grid.columns ≠ 0 ∧ Uncommented authorsScript.toList ∧
    Uncommented tornStatement.toList ∧ Uncommented booksScript.toList ∧ ';' ∉ tornStatement.toList ∧
      (∃ r, read {} .postgresql tornStatement = .ok r ∧ r.diagnostics ≠ []) ∧
        ∃ whole rest,
          read {} .postgresql (authorsScript ++ ";" ++ tornStatement ++ ";" ++ booksScript) = .ok whole ∧
          read {} .postgresql (authorsScript ++ ";" ++ booksScript) = .ok rest ∧
            Isolates {} .postgresql authorsScript tornStatement booksScript whole rest := by
  have ha : Uncommented authorsScript.toList := ⟨by decide +kernel, by decide +kernel⟩
  have hg : Uncommented tornStatement.toList := ⟨by decide +kernel, by decide +kernel⟩
  have hb : Uncommented booksScript.toList := ⟨by decide +kernel, by decide +kernel⟩
  have hsep : ';' ∉ tornStatement.toList := by decide +kernel
  have hbad : ∃ r, read {} .postgresql tornStatement = .ok r ∧ r.diagnostics ≠ [] :=
    ⟨_, read_eq .postgresql tornStatement (by decide), by decide +kernel⟩
  exact ⟨by decide, ha, hg, hb, hsep, hbad, (isolated (by decide) .postgresql).2 _ _ _ ha hg hb hsep hbad⟩

end Erd.Sql
