import Erd.Proofs.Sql.Definition
import Erd.Proofs.Sql.Isolation

/-!
# Written scripts

No character of a written script outside of its semicolons separates statements or belongs to a comment, so
the statements of the script are its commands. A command that creates a table is read with its name and
with its lines; one that adds a foreign key is a statement that readers do not know.

**Results.**
* `read_tableStem`: the definition of a table is read line by line.
* `statements_script`: the statements of a script are its commands without their semicolons.
* `tables_of_results`, `diagnostics_of_results`: what the statements come to.
-/
namespace Erd.Sql

open Text

/-! ## Lines -/

/-- The line of a body without the blanks in front of it. -/
def lineText (l : BodyLine) : List Char := l.text.toList.drop 2

theorem toList_bodyLine (l : BodyLine) : l.text.toList = [' ', ' '] ++ lineText l := by
  have key {s : String} (h : l.text = "  " ++ s) : l.text.toList = [' ', ' '] ++ lineText l := by
    rw [lineText, h, String.toList_append]
    rfl
  cases l with
  | column name words => exact key rfl
  | primaryKey columns =>
    have htext : (BodyLine.primaryKey columns).text =
        "  PRIMARY KEY (" ++ ", ".intercalate columns ++ ")" := rfl
    rw [lineText, htext, String.toList_append, String.toList_append]
    rfl
  | foreignKey k => exact key rfl
  | clause text => exact key rfl

theorem lineText_column (d : Dialect) (c : Column) :
    lineText (.column c.name (columnWords d c)) = columnText d c := by
  rw [lineText, toList_columnLine]
  rfl

theorem lineText_primaryKey (names : List String) : lineText (.primaryKey names) = keyText names := by
  have hlist : (", ".intercalate names).toList = namesText names := by
    rw [String.toList_intercalate, namesText]
    rfl
  have htext : (BodyLine.primaryKey names).text = "  PRIMARY KEY (" ++ ", ".intercalate names ++ ")" := rfl
  rw [lineText, htext, String.toList_append, String.toList_append, hlist]
  rfl

theorem lineText_foreignKey (k : KeyClause) : lineText (.foreignKey k) = foreignKeyText k := by
  have h1 : "  ".toList = [' ', ' '] := rfl
  have h2 : "FOREIGN KEY (".toList = ['F', 'O', 'R', 'E', 'I', 'G', 'N', ' ', 'K', 'E', 'Y', ' ', '('] := rfl
  have h3 : ") REFERENCES ".toList =
      ')' :: [' ', 'R', 'E', 'F', 'E', 'R', 'E', 'N', 'C', 'E', 'S', ' '] := rfl
  have h4 : "(".toList = ['('] := rfl
  have h5 : ")".toList = [')'] := rfl
  have htext : (BodyLine.foreignKey k).text = "  " ++ ("FOREIGN KEY (" ++ k.column ++ ") REFERENCES " ++
      k.table ++ "(" ++ k.referenced ++ ")") := rfl
  rw [lineText, htext]
  simp only [String.toList_append, h1, h2, h3, h4, h5]
  simp [foreignKeyText, targetText]

/-! ## Tables -/

/-- What stands behind the body of a table before the semicolon. -/
def closingText : Dialect → List Char
  | .mysql => ") ENGINE=InnoDB DEFAULT CHARSET=utf8mb4".toList
  | _ => [')']

/-- The command that creates a table with these lines, without its semicolon. -/
def tableStem (d : Dialect) (name : String) (xs : List (List Char)) : List Char :=
  ['C', 'R', 'E', 'A', 'T', 'E', ' ', 'T', 'A', 'B', 'L', 'E', ' '] ++
    (name.toList ++ ' ' :: '(' :: (bodyText xs ++ closingText d))

theorem toList_closing (d : Dialect) : ((TableOptions.closing {} d)).toList = closingText d ++ [';'] := by
  cases d <;> decide

theorem text_createTable (d : Dialect) (name : String) (ls : List BodyLine) :
    ((Command.createTable name ls).text {} d).toList = tableStem d name (ls.map lineText) ++ [';'] := by
  have h1 : "CREATE TABLE ".toList = ['C', 'R', 'E', 'A', 'T', 'E', ' ', 'T', 'A', 'B', 'L', 'E', ' '] := rfl
  have h2 : " (\n".toList = [' ', '(', '\n'] := rfl
  have h3 : ",\n".toList = [',', '\n'] := rfl
  have h4 : "\n".toList = ['\n'] := rfl
  cases ls with
  | nil =>
    have htext : (Command.createTable name []).text {} d =
        "CREATE TABLE " ++ name ++ " (\n" ++ TableOptions.closing {} d := rfl
    rw [htext]
    simp only [String.toList_append, h1, h2, toList_closing]
    simp [tableStem, bodyText]
  | cons l ls =>
    have hlines : ((l :: ls).map BodyLine.text).map String.toList =
        ((l :: ls).map lineText).map ([' ', ' '] ++ ·) := by
      rw [List.map_map, List.map_map]
      exact List.map_congr_left fun x _ => toList_bodyLine x
    have htext : (Command.createTable name (l :: ls)).text {} d = "CREATE TABLE " ++ name ++ " (\n" ++
        ",\n".intercalate ((l :: ls).map BodyLine.text) ++ "\n" ++ TableOptions.closing {} d := rfl
    rw [htext]
    simp only [String.toList_append, String.toList_intercalate, h1, h2, h3, h4, toList_closing, hlines]
    simp [tableStem, bodyText]

/-- A name before a parenthesis is no part of `IF NOT EXISTS`. -/
theorem phrase_ifNotExists {name : String} (hn : Plain name) (s : List Char) :
    phrase ["if", "not", "exists"] (name.toList ++ ' ' :: '(' :: s) = none := by
  have hskip : (keyword "if" (name.toList ++ ' ' :: '(' :: s)).bind skipBlanks? =
      if keyword "if" name.toList = some [] then some ('(' :: s) else none :=
    keyword_bind_skipBlanks? (by decide) rfl hn.2 _
  rw [phrase, hskip]
  · split
    · rfl
    · rfl
  · simp

theorem looseWord?_plain {name : String} (hn : Plain name) (s : List Char) :
    looseWord? (name.toList ++ ' ' :: s) = some (name.toList, ' ' :: s) := by
  obtain ⟨a, u, hu⟩ := List.exists_cons_of_ne_nil hn.1
  have hq : isQuote a = false := isQuote_of_isWord (hn.2 a (by rw [hu]; exact List.mem_cons_self))
  have hdrop : dropQuote (name.toList ++ ' ' :: s) = name.toList ++ ' ' :: s := by
    rw [hu, List.cons_append, dropQuote, if_neg (by simp [hq])]
  have hhead : ∀ c ∈ (' ' :: s).head?, isWord c = false := by
    intro c hc
    cases hc
    decide
  have hempty : name.toList.isEmpty = false := by simpa using hn.1
  simp only [looseWord?, hdrop, leadingWord_append hn.2 hhead, afterWord_append hn.2 hhead, hempty,
    Bool.false_eq_true, if_false]
  rfl

/-- The head of a written table is its name, and its body follows. -/
theorem tableHead?_tableStem (d : Dialect) {name : String} (hn : Plain name) (xs : List (List Char)) :
    tableHead? (tableStem d name xs) = some (name.toList, '(' :: (bodyText xs ++ closingText d)) := by
  have hphrase : phrase ["create", "table"] (tableStem d name xs) =
      some (' ' :: (name.toList ++ ' ' :: '(' :: (bodyText xs ++ closingText d))) := rfl
  obtain ⟨a, u, hu⟩ := List.exists_cons_of_ne_nil hn.1
  have hskip : skipBlanks? (' ' :: (name.toList ++ ' ' :: '(' :: (bodyText xs ++ closingText d))) =
      some (name.toList ++ ' ' :: '(' :: (bodyText xs ++ closingText d)) := by
    refine skipBlanks?_blank (c := ' ') rfl ?_
    rw [hu]
    intro c hc
    cases hc
    exact isBlank_of_isWord (hn.2 a (by rw [hu]; exact List.mem_cons_self))
  rw [tableHead?, hphrase, Option.bind_some, hskip]
  simp only [phrase_ifNotExists hn, Option.bind_none, Option.getD_none, looseWord?_plain hn]
  rfl

/-- The definition of a table is read line by line. -/
theorem read_tableStem (d : Dialect) {name : String} (hn : Plain name) {xs : List (List Char)}
    (h : ∀ x ∈ xs, IsBodyLine x) :
    TableDefinition.read (tableStem d name xs) = .ok ⟨name, xs.map Definition.read⟩ := by
  have hdefines : definesTable (tableStem d name xs) = true := rfl
  have hclose : ∃ rest, closingText d = ')' :: rest := by
    cases d
    · exact ⟨_, rfl⟩
    · exact ⟨_, rfl⟩
    · exact ⟨_, rfl⟩
  obtain ⟨rest, hrest⟩ := hclose
  have hbody : body? ('(' :: (bodyText xs ++ closingText d)) = some (bodyText xs) := by
    rw [hrest]
    exact body?_bodyText (fun x hx => (h x hx).flat) rest
  rw [TableDefinition.read, if_pos hdefines, tableHead?_tableStem d hn]
  simp only [Option.bind_some, hbody, Option.map_some, definitions_bodyText h, String.ofList_toList]

/-! ## Foreign keys -/

/-- The command that adds a foreign key, without its semicolon. -/
def addKeyStem (table : String) (k : KeyClause) : List Char :=
  ['A', 'L', 'T', 'E', 'R', ' ', 'T', 'A', 'B', 'L', 'E', ' '] ++ (table.toList ++
    ([' ', 'A', 'D', 'D', ' ', 'C', 'O', 'N', 'S', 'T', 'R', 'A', 'I', 'N', 'T', ' ', 'f', 'k', '_'] ++
      (table.toList ++ '_' :: (k.column.toList ++ '\n' :: ' ' :: ' ' :: foreignKeyText k))))

theorem text_addForeignKey (d : Dialect) (table : String) (k : KeyClause) :
    ((Command.addForeignKey table k).text {} d).toList = addKeyStem table k ++ [';'] := by
  have h1 : "ALTER TABLE ".toList = ['A', 'L', 'T', 'E', 'R', ' ', 'T', 'A', 'B', 'L', 'E', ' '] := rfl
  have h2 : " ADD CONSTRAINT fk_".toList =
      [' ', 'A', 'D', 'D', ' ', 'C', 'O', 'N', 'S', 'T', 'R', 'A', 'I', 'N', 'T', ' ', 'f', 'k', '_'] := rfl
  have h3 : "_".toList = ['_'] := rfl
  have h4 : "\n  ".toList = ['\n', ' ', ' '] := rfl
  have h5 : ";".toList = [';'] := rfl
  have hkey : k.text.toList = foreignKeyText k := by
    have h := lineText_foreignKey k
    have htext : (BodyLine.foreignKey k).text = "  " ++ k.text := rfl
    rw [lineText, htext, String.toList_append] at h
    exact h
  have htext : (Command.addForeignKey table k).text {} d = "ALTER TABLE " ++ table ++
      " ADD CONSTRAINT fk_" ++ table ++ "_" ++ k.column ++ "\n  " ++ k.text ++ ";" := rfl
  rw [htext]
  simp only [String.toList_append, h1, h2, h3, h4, h5, hkey]
  simp [addKeyStem]

/-- A reader does not know the command that adds a foreign key. -/
theorem read_addKeyStem (table : String) (k : KeyClause) :
    TableDefinition.read (addKeyStem table k) = .error .unsupported := rfl

/-! ## Scripts -/

/-- A command of a script without its semicolon: not empty, without blanks around it, and made of the
characters of scripts. -/
structure IsStem (s : List Char) : Prop where
  ne_nil : s ≠ []
  tight : Tight s
  chars : ∀ c ∈ s, isScriptChar c = true

theorem isScriptChar_of_mem_bodyText {xs : List (List Char)} (h : ∀ x ∈ xs, IsScriptLine x) :
    ∀ c ∈ bodyText xs, isScriptChar c = true := by
  induction xs with
  | nil => decide
  | cons x xs ih =>
    obtain ⟨hx, hxs⟩ := List.forall_mem_cons.mp h
    have hstart : ∀ c ∈ ['\n', ' ', ' '] ++ x, isScriptChar c = true :=
      List.forall_mem_append.mpr ⟨by decide, hx.chars⟩
    cases xs with
    | nil =>
      rw [bodyText_singleton, ← List.append_assoc]
      exact List.forall_mem_append.mpr ⟨hstart, by decide⟩
    | cons y ys =>
      rw [bodyText_cons_cons]
      exact List.forall_mem_append.mpr ⟨hstart, List.forall_mem_cons.mpr ⟨by decide, ih hxs⟩⟩

theorem isStem_tableStem (d : Dialect) {name : String} (hn : Plain name) {xs : List (List Char)}
    (h : ∀ x ∈ xs, IsScriptLine x) : IsStem (tableStem d name xs) := by
  have hclosing : closingText d ≠ [] ∧ (∀ c ∈ (closingText d).getLast?, isBlank c = false) ∧
      ∀ c ∈ closingText d, isScriptChar c = true := by
    cases d <;> decide
  obtain ⟨hne, hlast, hchars⟩ := hclosing
  have hsplit : tableStem d name xs = (['C', 'R', 'E', 'A', 'T', 'E', ' ', 'T', 'A', 'B', 'L', 'E', ' '] ++
      (name.toList ++ ' ' :: '(' :: bodyText xs)) ++ closingText d := by
    simp [tableStem]
  refine ⟨by simp [tableStem], ⟨fun c hc => ?_, ?_⟩, ?_⟩
  · cases hc
    rfl
  · rw [hsplit, getLast?_append_right hne]
    exact hlast
  · have hword : ∀ c ∈ name.toList, isScriptChar c = true := fun c hc => isScriptChar_of_isWord (hn.2 c hc)
    have hbody : ∀ c ∈ ' ' :: '(' :: bodyText xs, isScriptChar c = true :=
      List.forall_mem_cons.mpr ⟨by decide, List.forall_mem_cons.mpr
        ⟨by decide, isScriptChar_of_mem_bodyText h⟩⟩
    rw [hsplit]
    exact List.forall_mem_append.mpr ⟨List.forall_mem_append.mpr ⟨by decide,
      List.forall_mem_append.mpr ⟨hword, hbody⟩⟩, hchars⟩

theorem isStem_addKeyStem {table : String} (htable : Plain table) {k : KeyClause} (hc : Plain k.column)
    (ht : Plain k.table) (hr : Plain k.referenced) : IsStem (addKeyStem table k) := by
  have hline := isScriptLine_foreignKeyText hc ht hr
  have hsplit : addKeyStem table k = (['A', 'L', 'T', 'E', 'R', ' ', 'T', 'A', 'B', 'L', 'E', ' '] ++
      (table.toList ++ ([' ', 'A', 'D', 'D', ' ', 'C', 'O', 'N', 'S', 'T', 'R', 'A', 'I', 'N', 'T', ' ', 'f',
        'k', '_'] ++ (table.toList ++ '_' :: (k.column.toList ++ ['\n', ' ', ' ']))))) ++
      foreignKeyText k := by
    simp [addKeyStem]
  refine ⟨by simp [addKeyStem], ⟨fun c hc => ?_, ?_⟩, ?_⟩
  · cases hc
    rfl
  · rw [hsplit, getLast?_append_right hline.ne_nil]
    exact hline.tight.2
  · have hword {n : String} (hn : Plain n) : ∀ c ∈ n.toList, isScriptChar c = true :=
      fun c hc => isScriptChar_of_isWord (hn.2 c hc)
    have hname : ∀ c ∈ table.toList ++ '_' :: (k.column.toList ++ ['\n', ' ', ' ']), isScriptChar c = true :=
      List.forall_mem_append.mpr ⟨hword htable, List.forall_mem_cons.mpr ⟨by decide,
        List.forall_mem_append.mpr ⟨hword hc, by decide⟩⟩⟩
    rw [hsplit]
    exact List.forall_mem_append.mpr ⟨List.forall_mem_append.mpr ⟨by decide, List.forall_mem_append.mpr
      ⟨hword htable, List.forall_mem_append.mpr ⟨by decide, hname⟩⟩⟩, hline.chars⟩

theorem ne_of_isScriptChar {c x : Char} (h : isScriptChar c = true) (hx : isScriptChar x = false) :
    c ≠ x := by
  rintro rfl
  rw [h] at hx
  cases hx

/-- Commands with their semicolons and a blank line between any two. -/
def scriptText (stems : List (List Char)) : List Char :=
  ['\n', '\n'].intercalate (stems.map (· ++ [';']))

theorem scriptText_cons_cons (s t : List Char) (ss : List (List Char)) :
    scriptText (s :: t :: ss) = s ++ ';' :: (['\n', '\n'] ++ scriptText (t :: ss)) := by
  simp [scriptText]

theorem isBlankText_scriptText {stems : List (List Char)} (hne : stems ≠ []) (h : ∀ s ∈ stems, IsStem s) :
    isBlankText (scriptText stems) = false := by
  obtain ⟨s, ss, rfl⟩ := List.exists_cons_of_ne_nil hne
  have hs := h s List.mem_cons_self
  obtain ⟨c, t, ht⟩ := List.exists_cons_of_ne_nil hs.ne_nil
  have hc : isBlank c = false := hs.tight.1 c (by rw [ht]; rfl)
  have hstart : ∃ rest, scriptText (s :: ss) = c :: rest := by
    rw [ht]
    cases ss with
    | nil => exact ⟨t ++ [';'], by simp [scriptText]⟩
    | cons u us => exact ⟨_, by rw [scriptText_cons_cons, List.cons_append]⟩
  obtain ⟨rest, hrest⟩ := hstart
  rw [hrest, isBlankText, List.all_cons, hc, Bool.false_and]

theorem stripComments_scriptText {stems : List (List Char)} (h : ∀ s ∈ stems, IsStem s) :
    stripComments (scriptText stems) = scriptText stems := by
  have hchars : ∀ c ∈ scriptText stems, isScriptChar c = true ∨ c = ';' := by
    induction stems with
    | nil => simp [scriptText]
    | cons s ss ih =>
      obtain ⟨hs, hss⟩ := List.forall_mem_cons.mp h
      intro c hc
      cases ss with
      | nil =>
        have hc' : c ∈ s ∨ c = ';' := by simpa [scriptText] using hc
        exact hc'.imp_left (hs.chars c)
      | cons t ts =>
        rw [scriptText_cons_cons] at hc
        simp only [List.mem_append, List.mem_cons, List.not_mem_nil, or_false] at hc
        rcases hc with hc | rfl | (rfl | rfl) | hc
        · exact .inl (hs.chars c hc)
        · exact .inr rfl
        · exact .inl (by decide)
        · exact .inl (by decide)
        · exact ih hss c hc
  have hno {x : Char} (hx : isScriptChar x = false) (hx' : x ≠ ';') : x ∉ scriptText stems := by
    intro hm
    rcases hchars x hm with h | h
    · exact ne_of_isScriptChar h hx rfl
    · exact hx' h
  have hdash : '-' ∉ scriptText stems := hno (by decide) (by decide)
  have hslash : '/' ∉ scriptText stems := hno (by decide) (by decide)
  exact stripComments_eq_self (uncommented_of_not_mem hdash hslash)

/-- A stem after blanks is the statement of its piece. -/
theorem statementsFrom_stem {a s : List Char} (ha : ∀ c ∈ a, isBlank c = true) (hs : IsStem s) (line : Nat)
    (pieces : List (List Char)) :
    ∃ n m, statementsFrom line ((a ++ s) :: pieces) = ⟨n, s⟩ :: statementsFrom m pieces := by
  obtain ⟨c, t, ht⟩ := List.exists_cons_of_ne_nil hs.ne_nil
  have hblank : isBlankText (a ++ s) = false := by
    have hc : isBlank c = false := hs.tight.1 c (by rw [ht]; rfl)
    rw [isBlankText, List.all_append, ht, List.all_cons, hc]
    simp
  have htrim : trim (a ++ s) = s := by
    simpa using trim_pad (b := []) ha hs.tight (by simp)
  refine ⟨line + newlines ((a ++ s).takeWhile isBlank), line + newlines (a ++ s), ?_⟩
  rw [statementsFrom, hblank, htrim]
  rfl

theorem statementsFrom_script {stems : List (List Char)} (h : ∀ s ∈ stems, IsStem s) {a : List Char}
    (ha : ∀ c ∈ a, c = '\n') (line : Nat) :
    (statementsFrom line (splitOn ';' (a ++ scriptText stems))).map Statement.text = stems := by
  have hab : ∀ c ∈ a, isBlank c = true := by
    intro c hc
    rw [ha c hc]
    rfl
  have hasep : ';' ∉ a := fun hm => by cases ha _ hm
  induction stems generalizing a line with
  | nil =>
    have hblank : isBlankText a = true := List.all_eq_true.mpr hab
    have hs : a ++ scriptText [] = a := by simp [scriptText]
    rw [hs, splitOn_eq_self hasep, statementsFrom]
    simp only [hblank, if_true]
    rfl
  | cons s ss ih =>
    obtain ⟨hs, hss⟩ := List.forall_mem_cons.mp h
    have hsep : ';' ∉ a ++ s := by
      intro hm
      rcases List.mem_append.mp hm with hm | hm
      · exact hasep hm
      · exact ne_of_isScriptChar (hs.chars _ hm) (by decide) rfl
    cases ss with
    | nil =>
      have htext : a ++ scriptText [s] = (a ++ s) ++ ';' :: [] := by simp [scriptText]
      obtain ⟨n, m, hst⟩ := statementsFrom_stem hab hs line [[]]
      rw [htext, splitOn_append hsep, splitOn, hst]
      rfl
    | cons t ts =>
      have htext : a ++ scriptText (s :: t :: ts) =
          (a ++ s) ++ ';' :: (['\n', '\n'] ++ scriptText (t :: ts)) := by
        rw [scriptText_cons_cons]
        simp
      obtain ⟨n, m, hst⟩ := statementsFrom_stem hab hs line
        (splitOn ';' (['\n', '\n'] ++ scriptText (t :: ts)))
      rw [htext, splitOn_append hsep, hst, List.map_cons,
        ih hss (a := ['\n', '\n']) (by simp) m (by decide) (by decide)]

/-- The statements of a script are its commands without their semicolons. -/
theorem statements_script {stems : List (List Char)} (h : ∀ s ∈ stems, IsStem s) :
    (statements (scriptText stems)).map Statement.text = stems := by
  rw [statements, stripComments_scriptText h]
  exact statementsFrom_script h (a := []) (by simp) 1

/-! ## What statements come to -/

/-- The results of the statements of a script are those of its commands. -/
theorem results_script {stems : List (List Char)} (h : ∀ s ∈ stems, IsStem s) :
    (outcomes (scriptText stems)).map Outcome.result = stems.map TableDefinition.read := by
  rw [outcomes, List.map_map]
  have := congrArg (List.map TableDefinition.read) (statements_script h)
  rwa [List.map_map] at this

/-- Tables first and then statements that are not known: the tables are all the tables. -/
theorem tables_of_results {os : List Outcome} {tables : List TableDefinition} {n : Nat}
    (h : os.map Outcome.result =
      tables.map Except.ok ++ List.replicate n (Except.error StatementFault.unsupported)) :
    os.filterMap Outcome.table? = tables := by
  have htable : Outcome.table? =
      (fun r : Except StatementFault TableDefinition => r.toOption) ∘ Outcome.result := by
    funext o
    obtain ⟨line, result⟩ := o
    cases result <;> rfl
  have hbad : (List.replicate n (.error .unsupported)).filterMap
      (fun r : Except StatementFault TableDefinition => r.toOption) = [] := by
    refine List.filterMap_eq_nil_iff.mpr fun r hr => ?_
    rw [(List.mem_replicate.mp hr).2]
    rfl
  rw [htable, ← List.filterMap_map, h, List.filterMap_append, hbad, List.append_nil, List.filterMap_map]
  exact List.filterMap_some

/-- Each statement that is not known gives a diagnostic with its line, and no table gives one. -/
theorem diagnostics_of_results {os : List Outcome} {tables : List TableDefinition} {n : Nat} (d : Dialect)
    (h : os.map Outcome.result =
      tables.map Except.ok ++ List.replicate n (Except.error StatementFault.unsupported)) :
    ∃ ls : List Nat, ls.length = n ∧ os.filterMap (Outcome.diagnostic? d) =
      ls.map fun line => ⟨line, StatementFault.unsupported.message d line⟩ := by
  obtain ⟨good, bad, rfl, hgood, hbad⟩ := List.map_eq_append_iff.mp h
  refine ⟨bad.map Outcome.line, ?_, ?_⟩
  · have := congrArg List.length hbad
    simpa using this
  · have hnone : good.filterMap (Outcome.diagnostic? d) = [] := by
      refine List.filterMap_eq_nil_iff.mpr fun o ho => ?_
      have hm := hgood ▸ List.mem_map_of_mem (f := Outcome.result) ho
      obtain ⟨t, -, ht⟩ := List.mem_map.mp hm
      rw [Outcome.diagnostic?, ← ht]
    have hsome : ∀ o ∈ bad, ∃ x, Outcome.diagnostic? d o = some x ∧
        x = ⟨o.line, StatementFault.unsupported.message d o.line⟩ := by
      intro o ho
      have hm := hbad ▸ List.mem_map_of_mem (f := Outcome.result) ho
      refine ⟨_, ?_, rfl⟩
      rw [Outcome.diagnostic?, (List.mem_replicate.mp hm).2]
    have := map_filterMap_of_forall (g := id) hsome
    rw [List.map_id] at this
    rw [List.filterMap_append, hnone, List.nil_append, this, List.map_map]
    rfl

end Erd.Sql
