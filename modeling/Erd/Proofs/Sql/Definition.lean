import Erd.Proofs.Sql.Body
import Erd.Proofs.Sql.Declaration
import Erd.Sql.TableDefinition
import Erd.Sql.Writer

/-!
# Written definitions

What the forms of a definition make of the lines that are written into the body of a table. A column may
be called like a word that announces a key or an index. Such a word is only taken for one if another word
or a parenthesis follows, and what follows the name of a column is the name of its type.

**Results.**
* `toList_columnLine`, `settings_mem`: the text of a column is its name, its type and settings of which
  there are few.
* `read_columnText`: a column is read as a column, whatever word its name is.
* `read_keyText`, `read_foreignKeyText`: keys are read with the names in them.
* `ownColumn_marked`: what is written of the flags of a column is what is read back of them.
-/
namespace Erd.Sql

open Text

/-- A name that is one word. -/
def Plain (name : String) : Prop := name.toList ≠ [] ∧ ∀ c ∈ name.toList, isWord c = true

instance (name : String) : Decidable (Plain name) :=
  inferInstanceAs (Decidable (name.toList ≠ [] ∧ ∀ c ∈ name.toList, isWord c = true))

/-! ## Types and settings -/

/-- The word that the name of a type starts with. -/
def typeWord (d : Dialect) (t : ColumnType) : List Char := leadingWord (typeName d t).toList

/-- The size in parentheses after it, if there is one. -/
def typeSize (d : Dialect) (t : ColumnType) : List Char := afterWord (typeName d t).toList

theorem typeName_eq (d : Dialect) (t : ColumnType) :
    (typeName d t).toList = typeWord d t ++ typeSize d t :=
  (leadingWord_append_afterWord _).symm

/-- What is written of a column after its type. -/
def settingWords (d : Dialect) (isSerial : Bool) (k : Constraints) : List String :=
  if isSerial && d == .sqlite then ["PRIMARY KEY AUTOINCREMENT"]
  else if isSerial && d == .mysql then ["NOT NULL AUTO_INCREMENT"]
  else
    (if k.isPrimaryKey && d == .postgresql then ["PRIMARY KEY"] else []) ++
      (if !k.isNullable && !k.isPrimaryKey then ["NOT NULL"] else []) ++
      (if k.isUnique && !k.isPrimaryKey then ["UNIQUE"] else [])

/-- The same as text. -/
def settings (d : Dialect) (c : Column) : List Char :=
  (settingWords d (isSerialKey c) c.constraints).flatMap fun w => ' ' :: w.toList

/-- The type of a column with its settings. -/
def typeText (d : Dialect) (c : Column) : List Char :=
  typeWord d c.type ++ (typeSize d c.type ++ settings d c)

/-- The text of a column in the body of a table. -/
def columnText (d : Dialect) (c : Column) : List Char := c.name.toList ++ ' ' :: typeText d c

theorem intercalate_blank (w : String) (ws : List String) :
    (" ".intercalate (w :: ws)).toList = w.toList ++ ws.flatMap fun w => ' ' :: w.toList := by
  induction ws generalizing w with
  | nil => simp
  | cons v ws ih => simp [String.intercalate_cons_cons, ih]

theorem toList_columnLine (d : Dialect) (c : Column) :
    (BodyLine.column c.name (columnWords d c)).text.toList = [' ', ' '] ++ columnText d c := by
  have hwords : (" ".intercalate (c.name :: columnWords d c)).toList = columnText d c := by
    rw [intercalate_blank, columnText, typeText, ← List.append_assoc, ← typeName_eq, settings]
    unfold columnWords settingWords
    split
    · next h =>
      simp only [isSerialKey, Bool.and_eq_true, beq_iff_eq] at h
      rw [h.1.1, h.2]
      exact congrArg (c.name.toList ++ ·) (by decide)
    · split <;> simp
  have htext : (BodyLine.column c.name (columnWords d c)).text =
      "  " ++ " ".intercalate (c.name :: columnWords d c) := rfl
  rw [htext, String.toList_append, hwords]
  rfl

/-- Every text that settings can be. -/
def settingTexts : List (List Char) :=
  ["", " PRIMARY KEY", " PRIMARY KEY AUTOINCREMENT", " NOT NULL AUTO_INCREMENT", " NOT NULL", " UNIQUE",
    " NOT NULL UNIQUE"].map String.toList

theorem settings_mem (d : Dialect) (c : Column) : settings d c ∈ settingTexts := by
  have h : ∀ b p n u f : Bool,
      (settingWords d b ⟨p, n, u, f⟩).flatMap (fun w => ' ' :: w.toList) ∈ settingTexts := by
    cases d <;> decide +kernel
  exact h _ _ _ _ _

/-- Settings start with a blank, hold no sign, and end with a letter. -/
theorem settings_shape {s : List Char} (h : s ∈ settingTexts) :
    (s = [] ∨ ∃ a t, s = ' ' :: a :: t ∧ isBlank a = false ∧ a ≠ '(') ∧
      (∀ c ∈ s, isWord c = true ∨ c = ' ') ∧ ∀ c ∈ s.getLast?, isWord c = true := by
  simp only [settingTexts, List.map_cons, List.map_nil, List.mem_cons, List.not_mem_nil, or_false] at h
  have shape {a : Char} {t : List Char} (ha : isBlank a = false) (hp : a ≠ '(') :
      ∃ b u, ' ' :: a :: t = ' ' :: b :: u ∧ isBlank b = false ∧ b ≠ '(' := ⟨a, t, rfl, ha, hp⟩
  rcases h with rfl | rfl | rfl | rfl | rfl | rfl | rfl
  · exact ⟨.inl rfl, by decide, by decide⟩
  all_goals exact ⟨.inr (shape (by decide) (by decide)), by decide, by decide⟩

theorem typeWord_facts (d : Dialect) (t : ColumnType) :
    typeWord d t ≠ [] ∧ (∀ c ∈ (typeWord d t).head?, c.isAlpha = true) ∧
      isTypeWord (typeWord d t) = true := by
  cases d <;> cases t <;> decide +kernel

theorem isWord_of_mem_typeWord {d : Dialect} {t : ColumnType} : ∀ c ∈ typeWord d t, isWord c = true := by
  have h : (typeWord d t).all isWord = true := List.all_takeWhile
  exact List.all_eq_true.mp h

/-- The size of a type is nothing, or one parenthesis with digits and commas in it. -/
theorem typeSize_shape (d : Dialect) (t : ColumnType) :
    typeSize d t = [] ∨ ∃ inside, typeSize d t = '(' :: (inside ++ [')']) ∧
      ∀ c ∈ inside, isWord c = true ∨ c = ',' := by
  have h : typeSize d t = [] ∨ typeSize d t = '(' :: ((typeSize d t).tail.dropLast ++ [')']) ∧
      ∀ c ∈ (typeSize d t).tail.dropLast, isWord c = true ∨ c = ',' := by
    cases d <;> cases t <;> decide +kernel
  exact h.imp_right fun h => ⟨_, h⟩

theorem typeText_head (d : Dialect) (c : Column) :
    ∃ a s, typeText d c = a :: s ∧ a.isAlpha = true ∧ isWord a = true := by
  obtain ⟨hne, ha, -⟩ := typeWord_facts d c.type
  obtain ⟨a, s, hs⟩ := List.exists_cons_of_ne_nil hne
  refine ⟨a, s ++ (typeSize d c.type ++ settings d c), by rw [typeText, hs, List.cons_append], ?_, ?_⟩
  · exact ha a (by rw [hs]; rfl)
  · exact isWord_of_mem_typeWord a (by rw [hs]; exact List.mem_cons_self)

/-- What follows the word of a type is a blank or a parenthesis. -/
theorem afterType_stop (d : Dialect) (c : Column) :
    ∀ x ∈ (typeSize d c.type ++ settings d c).head?, isBlank x = true ∨ x = '(' := by
  obtain ⟨hs, -, -⟩ := settings_shape (settings_mem d c)
  intro x hx
  rcases typeSize_shape d c.type with hz | ⟨inside, hz, -⟩
  · rcases hs with hs | ⟨a, t, hs, -, -⟩
    · simp [hz, hs] at hx
    · rw [hz, hs] at hx
      cases hx
      exact .inl rfl
  · rw [hz] at hx
    cases hx
    exact .inr rfl

/-- It does not continue the word. -/
theorem afterType_head (d : Dialect) (c : Column) :
    ∀ x ∈ (typeSize d c.type ++ settings d c).head?, isWord x = false := by
  intro x hx
  rcases afterType_stop d c x hx with hb | rfl
  · exact isWord_of_isBlank hb
  · rfl

/-- The start of a word that may be a type is the start of one. -/
theorem spelling?_cond {c : Char} (h : c.isAlpha = true ∨ c = '_') : (c.isAlpha || c = '_') = true := by
  simpa using h

/-- A word before anything but a parenthesis is the whole spelling of a type. -/
theorem spelling?_word {w s : List Char} (ha : StartsType w) (hw : ∀ c ∈ w, isWord c = true)
    (hs : ∀ c ∈ s.head?, isWord c = false) (hp : (trimStart s).head? ≠ some '(') :
    spelling? (w ++ s) = some (w, s) := by
  obtain ⟨a, u, rfl, ha⟩ := ha
  rw [List.cons_append, spelling?, if_pos (spelling?_cond ha), ← List.cons_append, leadingWord_append hw hs,
    afterWord_append hw hs]
  simp only
  split
  · next h => exact absurd (by rw [h]; rfl) hp
  · rfl

/-- Neither blanks nor a sign continue a word. -/
theorem head?_gap_sign {g : List Char} (hg : ∀ c ∈ g, isBlank c = true) {d : Char} (hd : isWord d = false)
    (s : List Char) : ∀ c ∈ (g ++ d :: s).head?, isWord c = false := by
  intro c hc
  cases g with
  | nil =>
    cases hc
    exact hd
  | cons b g =>
    cases hc
    exact isWord_of_isBlank (hg _ List.mem_cons_self)

/-- A parenthesis after the word, with or without blanks between them, belongs to the spelling. -/
theorem spelling?_sized {w g inside s : List Char} (ha : StartsType w) (hw : ∀ c ∈ w, isWord c = true)
    (hg : ∀ c ∈ g, isBlank c = true) (hi : ')' ∉ inside) :
    spelling? (w ++ (g ++ '(' :: (inside ++ ')' :: s))) = some (w ++ (g ++ '(' :: (inside ++ [')'])), s) := by
  obtain ⟨a, u, rfl, ha⟩ := ha
  have hs := head?_gap_sign hg (d := '(') rfl (inside ++ ')' :: s)
  have hno : ∀ x ∈ inside, decide (x ≠ ')') = true := by
    intro x hx
    have : x ≠ ')' := by
      rintro rfl
      exact hi hx
    simpa using this
  have hopen : ∀ c ∈ ('(' :: (inside ++ ')' :: s)).head?, isBlank c = false := by
    intro c hc
    cases hc
    rfl
  have htrim : trimStart (g ++ '(' :: (inside ++ ')' :: s)) = '(' :: (inside ++ ')' :: s) :=
    trimStart_append hg hopen
  have htake : (g ++ '(' :: (inside ++ ')' :: s)).takeWhile isBlank = g := takeWhile_append_stop hg hopen
  have h1 : (inside ++ ')' :: s).takeWhile (· ≠ ')') = inside := takeWhile_append_stop hno (by simp)
  have h2 : (inside ++ ')' :: s).dropWhile (· ≠ ')') = ')' :: s := dropWhile_append_stop hno (by simp)
  rw [List.cons_append, spelling?, if_pos (spelling?_cond ha), ← List.cons_append, leadingWord_append hw hs,
    afterWord_append hw hs]
  simp only [htrim, htake, h1, h2]
  simp

/-- The spelling of the type is told apart from the settings. -/
theorem spelling?_typeText (d : Dialect) (c : Column) :
    spelling? (typeText d c) = some ((typeName d c.type).toList, settings d c) := by
  obtain ⟨hne, ha, -⟩ := typeWord_facts d c.type
  have hstarts : StartsType (typeWord d c.type) := by
    obtain ⟨a, u, hu⟩ := List.exists_cons_of_ne_nil hne
    exact ⟨a, u, hu, .inl (ha a (by rw [hu]; rfl))⟩
  rw [typeText, typeName_eq]
  rcases typeSize_shape d c.type with hz | ⟨inside, hz, hin⟩
  · have hhead := afterType_head d c
    obtain ⟨hset, -, -⟩ := settings_shape (settings_mem d c)
    have hstart : (trimStart (settings d c)).head? ≠ some '(' := by
      rcases hset with hset | ⟨x, t, hset, hx, hp⟩
      · simp [hset, trimStart]
      · rw [hset, trimStart, List.dropWhile_cons_of_pos (by decide),
          List.dropWhile_cons_of_neg (by simp [hx])]
        simpa using hp
    rw [hz, List.nil_append] at hhead
    rw [hz, List.nil_append, List.append_nil]
    exact spelling?_word hstarts isWord_of_mem_typeWord hhead hstart
  · have hno : ')' ∉ inside := fun hm => by
      rcases hin _ hm with h | h <;> revert h <;> decide
    rw [hz]
    simpa using spelling?_sized (g := []) (s := settings d c) hstarts isWord_of_mem_typeWord (by simp) hno

/-! ## Columns -/

section Columns

variable {d : Dialect} {c : Column}

theorem typeText_head_not_blank : ∀ x ∈ (typeText d c).head?, isBlank x = false := by
  obtain ⟨a, s, hs, -, ha⟩ := typeText_head d c
  rw [hs]
  intro x hx
  cases hx
  exact isBlank_of_isWord ha

theorem typeAfter_typeText (name : List Char) : TypeAfter name (typeText d c) := by
  obtain ⟨a, s, hs, ha, -⟩ := typeText_head d c
  have hword : leadingWord (typeText d c) = typeWord d c.type :=
    leadingWord_append isWord_of_mem_typeWord (afterType_head d c)
  have hafter : afterWord (typeText d c) = typeSize d c.type ++ settings d c :=
    afterWord_append isWord_of_mem_typeWord (afterType_head d c)
  have hled : TypeLed (typeText d c) :=
    ⟨by rw [hword]; exact (typeWord_facts d c.type).2.2, by rw [hafter]; exact afterType_stop d c⟩
  exact ⟨⟨a, s, hs, .inl ha⟩, fun _ _ _ => hled⟩

/-- A name that is neither the word that announces a constraint nor the name of a table option. -/
def Declarable (name : String) : Prop :=
  keyword "constraint" name.toList ≠ some [] ∧ String.ofList (upper name.toList) ∉ tableOptions

instance (name : String) : Decidable (Declarable name) :=
  inferInstanceAs (Decidable (_ ∧ _))

/-- A column is read as a column, whatever word its name is. -/
theorem read_columnText (h : Plain c.name) (hc : Declarable c.name) :
    Definition.read (columnText d c) =
      .column (columnDefinition c.name.toList (typeName d c.type).toList (settings d c)) := by
  have htrim : trimStart (typeText d c) = typeText d c := trimStart_eq_self typeText_head_not_blank
  exact read_declared h.2 rfl (htrim.symm ▸ typeAfter_typeText _) h.1 hc.1 hc.2
    (htrim.symm ▸ spelling?_typeText d c)

end Columns

/-! ## Keys -/

/-- The names in a list, with a comma and a blank between them. -/
def namesText (names : List String) : List Char := [',', ' '].intercalate (names.map String.toList)

/-- The line of a primary key. -/
def keyText (names : List String) : List Char :=
  ['P', 'R', 'I', 'M', 'A', 'R', 'Y', ' ', 'K', 'E', 'Y', ' ', '('] ++ (namesText names ++ [')'])

/-- The line of a foreign key after the parenthesis with its column. -/
def targetText (k : KeyClause) : List Char :=
  [' ', 'R', 'E', 'F', 'E', 'R', 'E', 'N', 'C', 'E', 'S', ' '] ++
    (k.table.toList ++ '(' :: (k.referenced.toList ++ [')']))

/-- The line of a foreign key. -/
def foreignKeyText (k : KeyClause) : List Char :=
  ['F', 'O', 'R', 'E', 'I', 'G', 'N', ' ', 'K', 'E', 'Y', ' ', '('] ++
    (k.column.toList ++ ')' :: targetText k)

theorem unquote_eq_self {s : List Char} (ht : Tight s) (hq : ∀ c ∈ s.head?, isQuote c = false) :
    unquote s = s := by
  rw [unquote, trim_eq_self ht]
  split
  · next q c rest =>
    rw [hq q rfl]
    rfl
  · rfl

/-- A name between blanks is read as it stands. -/
theorem nameText_pad {name : String} (h : Plain name) {a b : List Char} (ha : ∀ c ∈ a, isBlank c = true)
    (hb : ∀ c ∈ b, isBlank c = true) : nameText (a ++ (name.toList ++ b)) = name := by
  have ht := tight_of_word h.2
  have hq : ∀ c ∈ name.toList.head?, isQuote c = false := fun c hc =>
    isQuote_of_isWord (h.2 c (List.mem_of_mem_head? hc))
  have hu : unquote (a ++ (name.toList ++ b)) = name.toList := by
    have hself := unquote_eq_self ht hq
    rw [unquote, trim_eq_self ht] at hself
    rw [unquote, trim_pad ha ht hb]
    exact hself
  rw [nameText, hu, String.ofList_toList]

theorem nameText_plain {name : String} (h : Plain name) : nameText name.toList = name := by
  simpa using nameText_pad (a := []) (b := []) h (by simp) (by simp)

theorem nameList_namesText {names : List String} (hne : names ≠ []) (h : ∀ n ∈ names, Plain n) :
    nameList (namesText names) = names := by
  have hcomma {n : String} (hn : Plain n) : ',' ∉ n.toList := fun hm => absurd (hn.2 _ hm) (by decide)
  have key : ∀ a : List Char, (∀ c ∈ a, c = ' ') → nameList (a ++ namesText names) = names := by
    induction names with
    | nil => exact absurd rfl hne
    | cons n ns ih =>
      obtain ⟨hn, hns⟩ := List.forall_mem_cons.mp h
      intro a ha
      have hab : ∀ c ∈ a, isBlank c = true := by
        intro c hc
        rw [ha c hc]
        rfl
      have hno : ',' ∉ a ++ n.toList := by
        intro hm
        rcases List.mem_append.mp hm with hm | hm
        · cases ha _ hm
        · exact hcomma hn hm
      have hname : nameText (a ++ n.toList) = n := by
        simpa using nameText_pad (b := []) hn hab (by simp)
      cases ns with
      | nil =>
        have hs : namesText [n] = n.toList := by simp [namesText]
        rw [nameList, hs, splitOn_eq_self hno, List.map_cons, List.map_nil, hname]
      | cons m ms =>
        have hs : a ++ namesText (n :: m :: ms) =
            (a ++ n.toList) ++ ',' :: ([' '] ++ namesText (m :: ms)) := by
          simp [namesText]
        have hrest := ih (by simp) hns [' '] (by simp)
        rw [nameList] at hrest
        rw [nameList, hs, splitOn_append hno, List.map_cons, hname, hrest]
  simpa using key [] (by simp)

theorem parenthesized?_written {a inside rest : List Char} (ha : ∀ c ∈ a, isBlank c = true)
    (hne : inside ≠ []) (hi : ')' ∉ inside) :
    parenthesized? (a ++ '(' :: (inside ++ ')' :: rest)) = some (inside, rest) := by
  have hno : ∀ x ∈ inside, decide (x ≠ ')') = true := by
    intro x hx
    have : x ≠ ')' := by
      rintro rfl
      exact hi hx
    simpa using this
  have htrim : trimStart (a ++ '(' :: (inside ++ ')' :: rest)) = '(' :: (inside ++ ')' :: rest) :=
    trimStart_append ha (by intro c hc; cases hc; rfl)
  have h1 : (inside ++ ')' :: rest).takeWhile (· ≠ ')') = inside := takeWhile_append_stop hno (by simp)
  have h2 : (inside ++ ')' :: rest).dropWhile (· ≠ ')') = ')' :: rest := dropWhile_append_stop hno (by simp)
  obtain ⟨c, body, rfl⟩ := List.exists_cons_of_ne_nil hne
  rw [parenthesized?, htrim]
  simp only [h1, h2]

theorem not_mem_of_plain {name : String} (h : Plain name) {c : Char} (hc : isWord c = false) :
    c ∉ name.toList := fun hm => by
  rw [h.2 c hm] at hc
  cases hc

theorem mem_namesText {names : List String} {c : Char} (h : c ∈ namesText names) :
    c = ',' ∨ c = ' ' ∨ ∃ n ∈ names, c ∈ n.toList := by
  induction names with
  | nil => cases h
  | cons n ns ih =>
    cases ns with
    | nil => exact .inr (.inr ⟨n, List.mem_cons_self, by simpa [namesText] using h⟩)
    | cons m ms =>
      have hs : namesText (n :: m :: ms) = n.toList ++ ',' :: ' ' :: namesText (m :: ms) := by
        simp [namesText]
      rw [hs] at h
      simp only [List.mem_append, List.mem_cons] at h
      rcases h with h | h | h | h
      · exact .inr (.inr ⟨n, List.mem_cons_self, h⟩)
      · exact .inl h
      · exact .inr (.inl h)
      · rcases ih h with h | h | ⟨k, hk, h⟩
        · exact .inl h
        · exact .inr (.inl h)
        · exact .inr (.inr ⟨k, List.mem_cons_of_mem n hk, h⟩)

theorem namesText_ne_nil {names : List String} (hne : names ≠ []) (h : ∀ n ∈ names, Plain n) :
    namesText names ≠ [] := by
  obtain ⟨n, ns, rfl⟩ := List.exists_cons_of_ne_nil hne
  have hn := (h n List.mem_cons_self).1
  cases ns with
  | nil => simpa [namesText] using hn
  | cons m ms => simp [namesText]

/-- The line of a primary key is read with the names in it. -/
theorem read_keyText {names : List String} (hne : names ≠ []) (h : ∀ n ∈ names, Plain n) :
    Definition.read (keyText names) = .primaryKey names := by
  have hclose : ')' ∉ namesText names := by
    intro hm
    rcases mem_namesText hm with hm | hm | ⟨n, hn, hm⟩
    · cases hm
    · cases hm
    · exact not_mem_of_plain (h n hn) (by decide) hm
  have hphrase : phrase ["primary", "key"] (keyText names) =
      some ([' '] ++ '(' :: (namesText names ++ [')'])) :=
    rfl
  have hpar : parenthesized? ([' '] ++ '(' :: (namesText names ++ [')'])) = some (namesText names, []) :=
    parenthesized?_written (by decide) (namesText_ne_nil hne h) hclose
  have hkey : primaryKey? (keyText names) = some names := by
    rw [primaryKey?, hphrase, Option.bind_some, hpar]
    exact congrArg some (nameList_namesText hne h)
  rw [Definition.read, dropConstraintNames_eq_self rfl, classify, hkey]

/-- What stands after the word for a reference is read with both names. -/
theorem target?_spelled {t c : String} (ht : Plain t) {b : Char} {g o inside : List Char}
    (hb : isBlank b = true) (hg : ∀ x ∈ g, isBlank x = true) (ho : ∀ x ∈ o, isBlank x = true)
    (hne : inside ≠ []) (hi : ')' ∉ inside) (hc : nameText inside = c) (rest : List Char) :
    target? (b :: (g ++ (t.toList ++ (o ++ '(' :: (inside ++ ')' :: rest))))) = some ((t, c), rest) := by
  have hstart : ∀ x ∈ (t.toList ++ (o ++ '(' :: (inside ++ ')' :: rest))).head?, isBlank x = false := by
    obtain ⟨a, s, hs⟩ := List.exists_cons_of_ne_nil ht.1
    rw [hs]
    intro x hx
    cases hx
    exact isBlank_of_isWord (ht.2 a (by rw [hs]; exact List.mem_cons_self))
  have hskip : skipBlanks? (b :: (g ++ (t.toList ++ (o ++ '(' :: (inside ++ ')' :: rest))))) =
      some (t.toList ++ (o ++ '(' :: (inside ++ ')' :: rest))) := by
    rw [skipBlanks?, if_pos hb, trimStart_append hg hstart]
  have hparts : ∀ x ∈ t.toList, isNamePart x = true := by
    intro x hx
    have hopen : x ≠ '(' := ne_of_isWord (ht.2 x hx) (by decide)
    simp [isNamePart, isBlank_of_isWord (ht.2 x hx), hopen]
  have hstop : ∀ x ∈ (o ++ '(' :: (inside ++ ')' :: rest)).head?, isNamePart x = false := by
    intro x hx
    cases o with
    | nil =>
      cases hx
      rfl
    | cons _ o =>
      cases hx
      have hblank : isBlank x = true := ho _ List.mem_cons_self
      simp [isNamePart, hblank]
  have h1 : (t.toList ++ (o ++ '(' :: (inside ++ ')' :: rest))).takeWhile isNamePart = t.toList :=
    takeWhile_append_stop hparts hstop
  have h2 : (t.toList ++ (o ++ '(' :: (inside ++ ')' :: rest))).dropWhile isNamePart =
      o ++ '(' :: (inside ++ ')' :: rest) := dropWhile_append_stop hparts hstop
  have hempty : t.toList.isEmpty = false := by simpa using ht.1
  have htable : tableText t.toList = t := by
    rw [tableText, splitOn_eq_self (not_mem_of_plain ht (by decide))]
    exact nameText_plain ht
  rw [target?, hskip]
  simp only [h1, h2, hempty, Bool.false_eq_true, if_false, parenthesized?_written ho hne hi, Option.map_some, htable,
    hc]

/-- What a foreign key refers to is read with both names. -/
theorem target?_targetText {k : KeyClause} (ht : Plain k.table) (hr : Plain k.referenced) :
    (keyword "references" (trimStart (targetText k))).bind target? = some ((k.table, k.referenced), []) := by
  have hkey : keyword "references" (trimStart (targetText k)) =
      some (' ' :: (k.table.toList ++ '(' :: (k.referenced.toList ++ [')']))) := rfl
  rw [hkey]
  exact target?_spelled (b := ' ') (g := []) (o := []) ht rfl (by simp) (by simp) hr.1
    (not_mem_of_plain hr (by decide)) (nameText_plain hr) []

/-- The line of a foreign key is read with the three names. -/
theorem read_foreignKeyText {k : KeyClause} (hc : Plain k.column) (ht : Plain k.table)
    (hr : Plain k.referenced) :
    Definition.read (foreignKeyText k) = .foreignKey ⟨k.column, k.table, k.referenced⟩ := by
  have hprimary : primaryKey? (foreignKeyText k) = none := rfl
  have hphrase : phrase ["foreign", "key"] (foreignKeyText k) =
      some ([' '] ++ '(' :: (k.column.toList ++ ')' :: targetText k)) := rfl
  have hpar : parenthesized? ([' '] ++ '(' :: (k.column.toList ++ ')' :: targetText k)) =
      some (k.column.toList, targetText k) :=
    parenthesized?_written (by decide) hc.1 (not_mem_of_plain hc (by decide))
  have hforeign : foreignKey? (foreignKeyText k) = some ⟨k.column, k.table, k.referenced⟩ := by
    rw [foreignKey?, hphrase, Option.bind_some, hpar]
    simp only [target?_targetText ht hr, Option.map_some, nameText_plain hc]
  rw [Definition.read, dropConstraintNames_eq_self rfl, classify, hprimary, hforeign]

/-! ## Lines of bodies -/

/-- A character of a written script outside of the semicolons: of a word, blank, or a sign without a meaning
for comments. -/
def isScriptChar (c : Char) : Bool := isWord c || [' ', '\n', '(', ')', ',', '='].contains c

theorem isScriptChar_of_isWord {c : Char} (h : isWord c = true) : isScriptChar c = true := by
  simp [isScriptChar, h]

/-- A line that can stand in the body of a table of a script. -/
structure IsScriptLine (x : List Char) : Prop extends IsBodyLine x where
  chars : ∀ c ∈ x, isScriptChar c = true

theorem isNeutral_of_blank {c : Char} (h : isWord c = true ∨ c = ' ') : isNeutral c = true := by
  rcases h with h | rfl
  · exact isNeutral_of_isWord h
  · rfl

theorem isScriptChar_of_blank {c : Char} (h : isWord c = true ∨ c = ' ') : isScriptChar c = true := by
  rcases h with h | rfl
  · exact isScriptChar_of_isWord h
  · decide

theorem getLast?_append_right {s t : List Char} (h : t ≠ []) : (s ++ t).getLast? = t.getLast? := by
  rw [List.getLast?_append, List.getLast?_eq_some_getLast h]
  rfl

theorem typeText_last (d : Dialect) (c : Column) : ∀ x ∈ (typeText d c).getLast?, isBlank x = false := by
  obtain ⟨-, -, hlast⟩ := settings_shape (settings_mem d c)
  have hword : ∀ x ∈ (typeWord d c.type).getLast?, isBlank x = false := fun x hx =>
    isBlank_of_isWord (isWord_of_mem_typeWord x (List.mem_of_mem_getLast? hx))
  by_cases hs : settings d c = []
  · rcases typeSize_shape d c.type with hz | ⟨inside, hz, -⟩
    · rw [typeText, hs, hz, List.append_nil, List.append_nil]
      exact hword
    · rw [typeText, hs, hz, List.append_nil, getLast?_append_right (by simp), ← List.cons_append,
        List.getLast?_concat]
      intro x hx
      cases hx
      rfl
  · rw [typeText, ← List.append_assoc, getLast?_append_right hs]
    exact fun x hx => isBlank_of_isWord (hlast x hx)

theorem flat_typeText (d : Dialect) (c : Column) : Flat (typeText d c) := by
  obtain ⟨-, hset, -⟩ := settings_shape (settings_mem d c)
  have hsize : Flat (typeSize d c.type) := by
    rcases typeSize_shape d c.type with hz | ⟨inside, hz, hin⟩
    · rw [hz]
      exact .nil
    · rw [hz]
      exact .group (fun x hx => (hin x hx).imp_left isNeutral_of_isWord) .nil
  have htype : Flat (typeWord d c.type) :=
    flat_of_neutral fun x hx => isNeutral_of_isWord (isWord_of_mem_typeWord x hx)
  exact htype.append (hsize.append (flat_of_neutral fun x hx => isNeutral_of_blank (hset x hx)))

theorem isScriptChar_typeText (d : Dialect) (c : Column) : ∀ x ∈ typeText d c, isScriptChar x = true := by
  obtain ⟨-, hset, -⟩ := settings_shape (settings_mem d c)
  intro x hx
  rcases List.mem_append.mp hx with hx | hx
  · exact isScriptChar_of_isWord (isWord_of_mem_typeWord x hx)
  · rcases List.mem_append.mp hx with hx | hx
    · rcases typeSize_shape d c.type with hz | ⟨inside, hz, hin⟩
      · rw [hz] at hx
        cases hx
      · rw [hz] at hx
        simp only [List.mem_cons, List.mem_append, List.not_mem_nil, or_false] at hx
        rcases hx with rfl | hx | rfl
        · decide
        · rcases hin x hx with hx | rfl
          · exact isScriptChar_of_isWord hx
          · decide
        · decide
    · exact isScriptChar_of_blank (hset x hx)

theorem isScriptLine_columnText {d : Dialect} {c : Column} (h : Plain c.name) :
    IsScriptLine (columnText d c) := by
  obtain ⟨a, s, hs⟩ := List.exists_cons_of_ne_nil h.1
  have ha : isBlank a = false := isBlank_of_isWord (h.2 a (by rw [hs]; exact List.mem_cons_self))
  have hne : typeText d c ≠ [] := by
    obtain ⟨b, t, ht, -, -⟩ := typeText_head d c
    rw [ht]
    simp
  have hlast : (columnText d c).getLast? = (typeText d c).getLast? := by
    have hsplit : columnText d c = c.name.toList ++ [' '] ++ typeText d c := by simp [columnText]
    rw [hsplit, getLast?_append_right hne]
  have hname := flat_of_neutral fun x hx => isNeutral_of_isWord (h.2 x hx)
  refine ⟨⟨hname.append (.neutral rfl (flat_typeText d c)), ⟨?_, ?_⟩, by simp [columnText]⟩, ?_⟩
  · intro x hx
    rw [columnText, hs] at hx
    cases hx
    exact ha
  · rw [hlast]
    exact typeText_last d c
  · intro x hx
    rcases List.mem_append.mp hx with hx | hx
    · exact isScriptChar_of_isWord (h.2 x hx)
    · rcases List.mem_cons.mp hx with rfl | hx
      · decide
      · exact isScriptChar_typeText d c x hx

theorem isScriptLine_keyText {names : List String} (h : ∀ n ∈ names, Plain n) :
    IsScriptLine (keyText names) := by
  have hin : ∀ x ∈ namesText names, isWord x = true ∨ x = ',' ∨ x = ' ' := by
    intro x hx
    rcases mem_namesText hx with hx | hx | ⟨n, hn, hx⟩
    · exact .inr (.inl hx)
    · exact .inr (.inr hx)
    · exact .inl ((h n hn).2 x hx)
  have hsplit : keyText names = ['P', 'R', 'I', 'M', 'A', 'R', 'Y', ' ', 'K', 'E', 'Y', ' '] ++
      '(' :: (namesText names ++ ')' :: []) := rfl
  refine ⟨⟨?_, tight_of_ends rfl ?_ (by decide) (by decide : isBlank ')' = false), by simp [keyText]⟩, ?_⟩
  · rw [hsplit]
    refine (flat_of_neutral (by decide)).append (.group (fun x hx => ?_) .nil)
    rcases hin x hx with hx | hx | rfl
    · exact .inl (isNeutral_of_isWord hx)
    · exact .inr hx
    · exact .inl rfl
  · rw [keyText, ← List.append_assoc, List.getLast?_concat]
  · refine List.forall_mem_append.mpr ⟨by decide, List.forall_mem_append.mpr ⟨fun x hx => ?_, by decide⟩⟩
    rcases hin x hx with hx | rfl | rfl
    · exact isScriptChar_of_isWord hx
    · decide
    · decide

theorem isScriptLine_foreignKeyText {k : KeyClause} (hc : Plain k.column) (ht : Plain k.table)
    (hr : Plain k.referenced) : IsScriptLine (foreignKeyText k) := by
  have neutral {n : String} (h : Plain n) : ∀ x ∈ n.toList, isNeutral x = true :=
    fun x hx => isNeutral_of_isWord (h.2 x hx)
  have script {n : String} (h : Plain n) : ∀ x ∈ n.toList, isScriptChar x = true :=
    fun x hx => isScriptChar_of_isWord (h.2 x hx)
  have htarget : Flat (targetText k) := by
    have hgroup : Flat ('(' :: (k.referenced.toList ++ ')' :: [])) :=
      .group (fun x hx => .inl (neutral hr x hx)) .nil
    exact (flat_of_neutral (by decide)).append ((flat_of_neutral (neutral ht)).append hgroup)
  have hflat : Flat (foreignKeyText k) := by
    have hsplit : foreignKeyText k = ['F', 'O', 'R', 'E', 'I', 'G', 'N', ' ', 'K', 'E', 'Y', ' '] ++
        '(' :: (k.column.toList ++ ')' :: targetText k) := rfl
    rw [hsplit]
    exact (flat_of_neutral (by decide)).append (.group (fun x hx => .inl (neutral hc x hx)) htarget)
  have hlast : (foreignKeyText k).getLast? = some ')' := by
    have hsplit : foreignKeyText k = ['F', 'O', 'R', 'E', 'I', 'G', 'N', ' ', 'K', 'E', 'Y', ' ', '('] ++
        (k.column.toList ++ ')' :: ([' ', 'R', 'E', 'F', 'E', 'R', 'E', 'N', 'C', 'E', 'S', ' '] ++
          (k.table.toList ++ '(' :: k.referenced.toList))) ++ [')'] := by
      simp [foreignKeyText, targetText]
    rw [hsplit, List.getLast?_concat]
  refine ⟨⟨hflat, tight_of_ends rfl hlast (by decide) (by decide), by simp [foreignKeyText]⟩, ?_⟩
  have htchars : ∀ x ∈ targetText k, isScriptChar x = true :=
    List.forall_mem_append.mpr ⟨by decide, List.forall_mem_append.mpr ⟨script ht,
      List.forall_mem_cons.mpr ⟨by decide, List.forall_mem_append.mpr ⟨script hr, by decide⟩⟩⟩⟩
  exact List.forall_mem_append.mpr ⟨by decide, List.forall_mem_append.mpr ⟨script hc,
    List.forall_mem_cons.mpr ⟨by decide, htchars⟩⟩⟩

/-! ## Flags -/

/-- The column as it is read back: with the type that the dialect has for its own, where a primary key is
unique and never null. -/
def readBack (d : Dialect) (c : Column) : Outline.Column where
  name := c.name
  type := columnType (typeName d c.type).toList
  constraints :=
    { isPrimaryKey := c.constraints.isPrimaryKey
      isNullable := c.constraints.isNullable && !c.constraints.isPrimaryKey
      isUnique := c.constraints.isUnique || c.constraints.isPrimaryKey
      isForeignKey := false }

/-- The column as its own line gives it. -/
def ownColumn (d : Dialect) (c : Column) : Outline.Column :=
  (columnDefinition c.name.toList (typeName d c.type).toList (settings d c)).outline

/-- The flags that settings are read as, and that nothing in them refers to a table. -/
theorem settings_flags (d : Dialect) (c : Column) :
    inlineTarget? (settings d c) = none ∧
      (hasPhrase ["primary", "key"] (settings d c) || inKeyLine d c) = c.constraints.isPrimaryKey ∧
      (hasPhrase ["primary", "key"] (settings d c) || hasPhrase ["unique"] (settings d c) || inKeyLine d c) =
        (c.constraints.isUnique || c.constraints.isPrimaryKey) ∧
      (!(hasPhrase ["primary", "key"] (settings d c) || hasPhrase ["not", "null"] (settings d c)) &&
        !inKeyLine d c) = (c.constraints.isNullable && !c.constraints.isPrimaryKey) := by
  obtain ⟨id, name, type, ⟨p, n, u, f⟩⟩ := c
  simp only [settings, inKeyLine, isSerialKey]
  generalize (type == ColumnType.serial) = isSerial
  revert isSerial p n u f
  cases d <;> decide +kernel

/-- What the line of a column does not say of it, the line of the primary key does. -/
theorem ownColumn_marked (d : Dialect) (c : Column) :
    (if inKeyLine d c then markPrimaryKey (ownColumn d c) else ownColumn d c) = readBack d c := by
  obtain ⟨href, hp, hu, hn⟩ := settings_flags d c
  have hown : ownColumn d c = ⟨c.name, columnType (typeName d c.type).toList,
      { isPrimaryKey := hasPhrase ["primary", "key"] (settings d c)
        isNullable :=
          !(hasPhrase ["primary", "key"] (settings d c) || hasPhrase ["not", "null"] (settings d c))
        isUnique := hasPhrase ["primary", "key"] (settings d c) || hasPhrase ["unique"] (settings d c)
        isForeignKey := false }⟩ := by
    simp only [ownColumn, ColumnDefinition.outline, columnDefinition, href, Option.map_none,
      Option.isSome_none, String.ofList_toList]
  rw [hown, readBack, ← hn, ← hu, ← hp]
  cases inKeyLine d c
  · simp
  · simp [markPrimaryKey]

end Erd.Sql
