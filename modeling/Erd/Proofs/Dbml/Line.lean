import Erd.Dbml.Document
import Erd.Dbml.Writer
import Erd.Proofs.Text

/-!
# Written lines of DBML

What the readers of `Erd.Dbml.Line` make of the lines that `Erd.Dbml.Writer` writes. Between double quotes a
name may hold almost anything, so every step has to show that what the name holds is not taken for a part
of the line: the bracket of the settings is the last one, and a line that ends in a bracket is no header.

**Results.**
* `header?_written`: the header of a table is read with its name and its brace.
* `header?_columnLine`: a column is never a header, whatever it is called.
* `read_columnLine`: a column is read with its name, its type and the flags that DBML keeps.
* `ref?_refLine`: a reference is read with its sign and the four names.
-/
namespace Erd.Dbml

open Text

/-! ## Names -/

/-- A name that a line can hold: not empty, without a double quote and without a line end. -/
structure Writable (name : String) : Prop where
  ne_nil : name.toList ≠ []
  noQuote : '"' ∉ name.toList
  oneLine : OneLine name.toList

/-- A name is written as it stands if it is one word, and between double quotes otherwise. -/
theorem toList_writtenName (name : String) :
    ((∀ c ∈ name.toList, isWord c = true) ∧ (writtenName name).toList = name.toList) ∨
      (writtenName name).toList = '"' :: (name.toList ++ ['"']) := by
  unfold writtenName
  split
  · next h => exact .inl ⟨(isPlainWord_iff.mp h).2, rfl⟩
  · right
    simp

/-- A written name starts with a double quote or a word character. -/
theorem head_writtenName {name : String} (hne : name.toList ≠ []) :
    ∃ a s, (writtenName name).toList = a :: s ∧ (a = '"' ∨ isWord a = true) := by
  rcases toList_writtenName name with ⟨hw, he⟩ | he
  · cases hn : name.toList with
    | nil => exact absurd hn hne
    | cons a s => exact ⟨a, s, he.trans hn, .inr (hw a (by simp [hn]))⟩
  · exact ⟨'"', _, he, .inl rfl⟩

/-- A written name ends with a double quote or a word character. -/
theorem getLast?_writtenName {name : String} (hne : name.toList ≠ []) :
    ∃ z, (writtenName name).toList.getLast? = some z ∧ (z = '"' ∨ isWord z = true) := by
  rcases toList_writtenName name with ⟨hw, he⟩ | he
  · rw [he]
    exact ⟨name.toList.getLast hne, List.getLast?_eq_some_getLast hne, .inr (hw _ (List.getLast_mem hne))⟩
  · exact ⟨'"', by rw [he, ← List.cons_append, List.getLast?_concat], .inl rfl⟩

theorem oneLine_writtenName {name : String} (h : OneLine name.toList) : OneLine (writtenName name).toList := by
  rcases toList_writtenName name with ⟨-, he⟩ | he
  · rw [he]
    exact h
  · rw [he]
    intro c hc
    simp only [List.mem_cons, List.mem_append, List.not_mem_nil, or_false] at hc
    rcases hc with rfl | hc | rfl
    · decide
    · exact h c hc
    · decide

/-- The first character of a written name is no blank and none of the signs that open other lines. -/
theorem ne_of_head {a x : Char} (ha : a = '"' ∨ isWord a = true) (hq : x ≠ '"')
    (hx : isWord x = false) : a ≠ x := by
  rcases ha with rfl | ha
  · exact Ne.symm hq
  · exact ne_of_isWord ha hx

theorem isBlank_of_head {a : Char} (ha : a = '"' ∨ isWord a = true) : isBlank a = false := by
  rcases ha with rfl | ha
  · decide
  · exact isBlank_of_isWord ha

theorem quotedName?_quoted {name : List Char} (hne : name ≠ []) (hq : '"' ∉ name) (rest : List Char) :
    quotedName? ('"' :: (name ++ '"' :: rest)) = some (name, rest) := by
  have hb : ∀ c ∈ name, decide (c ≠ '"') = true := by
    intro c hc
    have : c ≠ '"' := by
      rintro rfl
      exact hq hc
    simpa using this
  have ht : (name ++ '"' :: rest).takeWhile (· ≠ '"') = name := takeWhile_append_stop hb (by simp)
  have hd : (name ++ '"' :: rest).dropWhile (· ≠ '"') = '"' :: rest :=
    dropWhile_append_stop hb (by simp)
  cases name with
  | nil => exact absurd rfl hne
  | cons c name => simp only [quotedName?, ht, hd]

theorem quotedName?_of_head {a : Char} (ha : a ≠ '"') (s : List Char) : quotedName? (a :: s) = none := by
  unfold quotedName?
  split
  · next h => exact absurd (List.cons.inj h).1 ha
  · rfl

/-- A written name is read back before anything that does not continue a word. -/
theorem name?_written {name : String} (h : Writable name) {rest : List Char}
    (hr : ∀ c ∈ rest.head?, isWord c = false) :
    name? ((writtenName name).toList ++ rest) = some (name.toList, rest) := by
  rcases toList_writtenName name with ⟨hw, he⟩ | he
  · rw [he, name?, leadingWord_append hw hr, afterWord_append hw hr]
    cases hn : name.toList with
    | nil => exact absurd hn h.ne_nil
    | cons a s =>
      have ha : a ≠ '"' := ne_of_isWord (hw a (by simp [hn])) (by decide)
      rw [List.cons_append, quotedName?_of_head ha]
      rfl
  · have hs : (writtenName name).toList ++ rest = '"' :: (name.toList ++ '"' :: rest) := by simp [he]
    rw [hs, name?, quotedName?_quoted h.ne_nil h.noQuote]

/-- What is read as a name ends with a double quote or a word character. -/
theorem name?_eq_some {s name rest : List Char} (h : name? s = some (name, rest)) :
    ∃ p z, s = p ++ rest ∧ p.getLast? = some z ∧ (z = '"' ∨ isWord z = true) := by
  unfold name? at h
  split at h
  · next r hr =>
    cases h
    unfold quotedName? at hr
    split at hr
    · next inside =>
      split at hr
      · next c body d tail ht hd =>
        cases hr
        have hdq : d = '"' := by
          have := List.head?_dropWhile_not (fun c => decide (c ≠ '"')) inside
          rw [hd] at this
          simpa using this
        refine ⟨'"' :: (c :: body ++ ['"']), '"', ?_, by simp [List.getLast?_cons], .inl rfl⟩
        have := List.takeWhile_append_dropWhile (p := fun c => decide (c ≠ '"')) (l := inside)
        rw [ht, hd, hdq] at this
        simp [← this]
      · cases hr
    · cases hr
  · split at h
    · cases h
    · next hne =>
      cases h
      have hne' : leadingWord s ≠ [] := by simpa using hne
      refine ⟨leadingWord s, (leadingWord s).getLast hne', (leadingWord_append_afterWord s).symm,
        List.getLast?_eq_some_getLast hne', .inr ?_⟩
      have hall : (leadingWord s).all isWord = true := List.all_takeWhile
      exact List.all_eq_true.mp hall _ (List.getLast_mem hne')

/-! ## Headers -/

/-- The line that opens a table. -/
def headerLine (name : String) : List Char :=
  ['T', 'a', 'b', 'l', 'e', ' '] ++ ((writtenName name).toList ++ [' ', '\x7b'])

theorem header?_written {name : String} (h : Writable name) :
    header? (headerLine name) = some ⟨name, true⟩ := by
  obtain ⟨a, s, hs, ha⟩ := head_writtenName h.ne_nil
  have hk : keyword "table" (headerLine name) =
      some (' ' :: ((writtenName name).toList ++ [' ', '\x7b'])) := rfl
  have hb : skipBlanks? (' ' :: ((writtenName name).toList ++ [' ', '\x7b'])) =
      some ((writtenName name).toList ++ [' ', '\x7b']) := by
    refine skipBlanks?_blank rfl ?_
    rw [hs]
    simpa using isBlank_of_head ha
  rw [header?, hk]
  simp only [Option.bind_some, hb]
  rw [name?_written h (by decide)]
  simp [trimStart, show isBlank ' ' = true from rfl, show isBlank '\x7b' = false from rfl, isBlankText]

/-- A text before blanks ends no other way than its last character or a blank. -/
theorem getLast?_append_blanks {p b : List Char} {z : Char} (hp : p.getLast? = some z) (hz : z ≠ ']')
    (hb : ∀ c ∈ b, isBlank c = true) : (p ++ b).getLast? ≠ some ']' := by
  rw [List.getLast?_append]
  cases hl : b.getLast? with
  | none => simpa [hp] using hz
  | some c =>
    have hc := hb c (List.mem_of_mem_getLast? hl)
    intro h
    cases h
    revert hc
    decide

/-- A header ends with its name, its brace or a blank. -/
theorem getLast?_of_header? {s : List Char} {h : Header} (hs : header? s = some h) :
    s.getLast? ≠ some ']' := by
  unfold header? at hs
  split at hs
  · cases hs
  · next name rest hn =>
    obtain ⟨t, ht, hn⟩ := Option.bind_eq_some_iff.mp hn
    obtain ⟨u, hu, ht⟩ := Option.bind_eq_some_iff.mp ht
    obtain ⟨word, hword, -⟩ := dropKeyword_eq_some hu
    obtain ⟨blanks, hblanks⟩ := skipBlanks?_eq_some ht
    obtain ⟨p, z, hp, hz, hzc⟩ := name?_eq_some hn
    have hs' : s = (word ++ blanks ++ p) ++ rest := by
      rw [hword, hblanks, hp]
      simp
    have hlast : (word ++ blanks ++ p).getLast? = some z := by
      rw [List.getLast?_append, hz]
      rfl
    have hne : z ≠ ']' := ne_of_head hzc (by decide) (by decide)
    have hrest := trimStart_eq rest
    split at hs
    · next hr =>
      rw [hr, List.append_nil] at hrest
      rw [hs', hrest]
      exact getLast?_append_blanks hlast hne (fun c hc => List.mem_takeWhile_imp hc)
    · next tail hr =>
      split at hs
      · next hb =>
        rw [hr] at hrest
        rw [hs', hrest]
        have := getLast?_append_blanks (p := word ++ blanks ++ p ++ (rest.takeWhile isBlank ++ ['\x7b']))
          (z := '\x7b') (by simp [List.getLast?_append]) (by decide) (List.all_eq_true.mp hb)
        simpa using this
      · cases hs
    · cases hs

/-! ## Columns -/

/-- What stands between the brackets of a column's settings. -/
def settingsInside (c : Constraints) : List Char := (", ".intercalate (settingTags c)).toList

/-- The line of a column without the blanks before it. -/
def columnLine (c : Column) : List Char :=
  (writtenName c.name).toList ++
    ' ' :: ((typeName c.type).toList ++ ' ' :: '[' :: (settingsInside c.constraints ++ [']']))

/-- The flags that DBML keeps: a primary key is not called unique as well, and no column a foreign key. -/
def keptFlags (c : Constraints) : Constraints :=
  { c with isUnique := c.isUnique && !c.isPrimaryKey, isForeignKey := false }

/-- The column that DBML keeps. -/
def keptColumn (c : Column) : Outline.Column := ⟨c.name, c.type, keptFlags c.constraints⟩

/-- Every bracket that opens is closed by a later one, if not by the next. -/
def bracketsClosed : List Char → Bool
  | [] => true
  | c :: s => (c ≠ '[' || s.contains ']') && bracketsClosed s

/-- There is always a setting: what is neither a primary key nor can be null is written as not null. -/
theorem settingTags_ne_nil (c : Constraints) : settingTags c ≠ [] := by
  unfold settingTags
  cases hn : c.isNullable <;> cases hp : c.isPrimaryKey <;> simp

theorem toList_settingsText (c : Constraints) :
    (settingsText c).toList = ' ' :: '[' :: (settingsInside c ++ [']']) := by
  unfold settingsText settingsInside
  split
  · next h => exact absurd h (settingTags_ne_nil c)
  · simp

theorem toList_columnText (c : Column) : (columnText c).toList = ' ' :: ' ' :: columnLine c := by
  simp [columnText, columnLine, toList_settingsText]

theorem settingsInside_facts (c : Constraints) :
    Tight (settingsInside c) ∧ ']' ∉ settingsInside c ∧ OneLine (settingsInside c) := by
  obtain ⟨p, n, u, f⟩ := c
  unfold Tight OneLine
  cases p <;> cases n <;> cases u <;> cases f <;> decide

/-- The settings are read back as the flags that DBML keeps. -/
theorem settingsOf_written (c : Constraints) :
    settingsOf (some (settingsInside c)) = ⟨keptFlags c, none⟩ := by
  obtain ⟨p, n, u, f⟩ := c
  cases p <;> cases n <;> cases u <;> cases f <;> decide +kernel

theorem typeName_facts (t : ColumnType) :
    (typeName t).toList ≠ [] ∧ ∀ c ∈ (typeName t).toList, isWord c = true := by
  cases t <;> decide

theorem bracketsClosed_append {s t : List Char} (hs : bracketsClosed s = true)
    (ht : bracketsClosed t = true) : bracketsClosed (s ++ t) = true := by
  induction s with
  | nil => exact ht
  | cons c s ih =>
    simp only [bracketsClosed, Bool.and_eq_true, Bool.or_eq_true, decide_eq_true_eq] at hs
    simp only [List.cons_append, bracketsClosed, Bool.and_eq_true, Bool.or_eq_true, decide_eq_true_eq]
    refine ⟨hs.1.imp_right fun h => ?_, ih hs.2⟩
    simp only [List.contains_eq_mem, decide_eq_true_eq, List.mem_append] at h ⊢
    exact .inl h

theorem bracketsClosed_of_not_mem {s : List Char} (h : '[' ∉ s) : bracketsClosed s = true := by
  induction s with
  | nil => rfl
  | cons c s ih =>
    obtain ⟨hc, hs⟩ := not_or.mp (mt List.mem_cons.mpr h)
    simp [bracketsClosed, Ne.symm hc, ih hs]

/-- The bracket of the settings is the first one from which no other bracket closes before the end. -/
theorem bracketAfter?_append {before inside : List Char} (hb : bracketsClosed before = true)
    (hi : ']' ∉ inside) :
    bracketAfter? (before ++ '[' :: (inside ++ [']'])) = some (before, inside) := by
  have hin : ∀ c ∈ inside, decide (c ≠ ']') = true := by
    intro c hc
    have : c ≠ ']' := by
      rintro rfl
      exact hi hc
    simpa using this
  induction before with
  | nil =>
    have ht : (inside ++ [']']).takeWhile (· ≠ ']') = inside := takeWhile_append_stop hin (by simp)
    have hd : (inside ++ [']']).dropWhile (· ≠ ']') = [']'] := dropWhile_append_stop hin (by simp)
    rw [List.nil_append, bracketAfter?, ht, hd]
    rfl
  | cons c before ih =>
    simp only [bracketsClosed, Bool.and_eq_true, Bool.or_eq_true, decide_eq_true_eq] at hb
    have hno : (c = '[' && (before ++ '[' :: (inside ++ [']'])).dropWhile (· ≠ ']') == [']']) = false := by
      rcases hb.1 with hc | hc
      · simp [hc]
      · -- a bracket that closes within `before` leaves more than one character
        rw [List.contains_eq_mem, decide_eq_true_eq] at hc
        have hne : before.dropWhile (· ≠ ']') ≠ [] := by
          intro h
          have := List.dropWhile_eq_nil_iff.mp h _ hc
          simp at this
        refine Bool.and_eq_false_iff.mpr (.inr (beq_eq_false_iff_ne.mpr fun h => ?_))
        rw [List.dropWhile_append, if_neg (by simpa using hne)] at h
        have hl := congrArg List.length h
        have := List.length_pos_iff.mpr hne
        simp at hl
        omega
    rw [List.cons_append, bracketAfter?, hno, ih hb.2]
    rfl

theorem bracketsClosed_writtenName {name : String} (h : bracketsClosed name.toList = true) :
    bracketsClosed (writtenName name).toList = true := by
  rcases toList_writtenName name with ⟨-, he⟩ | he
  · rwa [he]
  · rw [he]
    exact bracketsClosed_append (s := ['"']) rfl (bracketsClosed_append h rfl)

/-- A name that the line of a column can hold: not empty, on one line, with every bracket closed. A double quote
may stand in it where no blank does: then the name is read like one without quotes around it. -/
structure Legible (name : String) : Prop where
  ne_nil : name.toList ≠ []
  oneLine : OneLine name.toList
  closed : bracketsClosed name.toList = true
  unbroken : '"' ∈ name.toList → ∀ c ∈ name.toList, isBlank c = false

theorem Writable.legible {name : String} (h : Writable name) (hb : bracketsClosed name.toList = true) :
    Legible name :=
  ⟨h.ne_nil, h.oneLine, hb, fun hq => absurd hq h.noQuote⟩

/-- The main part of a column line: its name and its type. -/
def columnMain (c : Column) : List Char := (writtenName c.name).toList ++ ' ' :: (typeName c.type).toList

theorem splitSettings_columnLine {c : Column} (h : Legible c.name) :
    splitSettings (columnLine c) = (columnMain c, some (settingsInside c.constraints)) := by
  obtain ⟨a, s, hs, -⟩ := head_writtenName h.ne_nil
  obtain ⟨htne, htw⟩ := typeName_facts c.type
  obtain ⟨hin, hi, -⟩ := settingsInside_facts c.constraints
  have hsc : bracketsClosed s = true := by
    have := bracketsClosed_writtenName h.closed
    rw [hs, bracketsClosed, Bool.and_eq_true] at this
    exact this.2
  have htc : bracketsClosed (' ' :: ((typeName c.type).toList ++ [' '])) = true := by
    refine bracketsClosed_of_not_mem fun hm => ?_
    simp only [List.mem_cons, List.mem_append, List.not_mem_nil, or_false] at hm
    rcases hm with hm | hm | hm
    · cases hm
    · exact absurd (htw _ hm) (by decide)
    · cases hm
  have hline : columnLine c = a :: ((s ++ ' ' :: ((typeName c.type).toList ++ [' '])) ++
      '[' :: (settingsInside c.constraints ++ [']'])) := by
    simp [columnLine, hs]
  have hmain : a :: (s ++ ' ' :: ((typeName c.type).toList ++ [' '])) = columnMain c ++ [' '] := by
    simp [columnMain, hs]
  rw [hline, splitSettings, bracketAfter?_append (bracketsClosed_append hsc htc) hi]
  simp only [hmain]
  rw [trim_eq_self hin, trimEnd_append (by decide)]
  intro z hz
  rw [columnMain, List.getLast?_append, List.getLast?_cons] at hz
  have hzm : (typeName c.type).toList.getLast? = some z := by
    rw [List.getLast?_eq_some_getLast htne] at hz ⊢
    simpa using hz
  exact isBlank_of_isWord (htw z (List.mem_of_mem_getLast? hzm))

theorem wordAfterBlanks?_typeName (t : ColumnType) :
    wordAfterBlanks? (' ' :: (typeName t).toList) = some (typeName t).toList := by
  obtain ⟨hne, hw⟩ := typeName_facts t
  obtain ⟨a, s, hs⟩ := List.exists_cons_of_ne_nil hne
  have hskip : skipBlanks? (' ' :: (typeName t).toList) = some (typeName t).toList := by
    refine skipBlanks?_blank rfl ?_
    rw [hs]
    simpa using isBlank_of_isWord (hw a (by simp [hs]))
  have htake : (typeName t).toList.takeWhile (fun x => !isBlank x) = (typeName t).toList := by
    rw [List.takeWhile_eq_self_iff]
    exact fun x hx => by simp [isBlank_of_isWord (hw x hx)]
  rw [wordAfterBlanks?, hskip, Option.map_some, htake, hs]

theorem dropQuotes_of_head {a : Char} (ha : a ≠ '"') (s : List Char) : dropQuotes (a :: s) = a :: s := by
  unfold dropQuotes
  split
  · next h => exact absurd (List.cons.inj h).1 ha
  · rfl

theorem dropQuotes_quoted {name : List Char} (hne : name ≠ []) : dropQuotes ('"' :: (name ++ ['"'])) = name := by
  obtain ⟨a, s, rfl⟩ := List.exists_cons_of_ne_nil hne
  have hlast : (a :: (s ++ ['"'])).getLast? = some '"' := by
    rw [← List.cons_append, List.getLast?_concat]
  have hdrop : (a :: (s ++ ['"'])).dropLast = a :: s := by rw [← List.cons_append, List.dropLast_concat]
  simp only [dropQuotes, List.cons_append, hlast, hdrop]
  rfl

/-- Behind a name that ends at a quote within it there is no type. -/
theorem quotedName?_bind_of_mem {name : List Char} (hq : '"' ∈ name) (hnb : ∀ c ∈ name, isBlank c = false)
    (rest : List Char) :
    ((quotedName? ('"' :: (name ++ '"' :: rest))).bind fun p =>
      (wordAfterBlanks? p.2).map fun type => (p.1, type)) = none := by
  obtain ⟨p, n, rfl, hp⟩ := List.eq_append_cons_of_mem hq
  have hinside : p ++ '"' :: n ++ '"' :: rest = p ++ '"' :: (n ++ '"' :: rest) := by simp
  cases hpn : p with
  | nil => rfl
  | cons a t =>
    have hskip : skipBlanks? (n ++ '"' :: rest) = none := by
      cases n with
      | nil => exact skipBlanks?_of_head (by decide)
      | cons b n => exact skipBlanks?_of_head (hnb b (by simp))
    rw [← hpn, hinside, quotedName?_quoted (by simp [hpn]) hp, Option.bind_some, wordAfterBlanks?, hskip]
    rfl

/-- A quoted name may hold blanks; a name without quotes, or with further ones, ends at the first one. -/
theorem nameAndType?_columnMain {c : Column} (h : Legible c.name) :
    nameAndType? (columnMain c) = some (c.name.toList, (typeName c.type).toList) := by
  have ht := wordAfterBlanks?_typeName c.type
  have hstop : ∀ x ∈ (' ' :: (typeName c.type).toList).head?, (!isBlank x) = false := by
    intro x hx
    cases hx
    rfl
  rcases toList_writtenName c.name with ⟨hw, he⟩ | he
  · obtain ⟨a, s, hs⟩ := List.exists_cons_of_ne_nil h.ne_nil
    have ha : a ≠ '"' := ne_of_isWord (hw a (by simp [hs])) (by decide)
    have hq : quotedName? (columnMain c) = none := by
      rw [columnMain, he, hs]
      exact quotedName?_of_head ha _
    have hnb : ∀ x ∈ c.name.toList, (!isBlank x) = true := fun x hx => by
      simp [isBlank_of_isWord (hw x hx)]
    have h1 : (columnMain c).takeWhile (fun x => !isBlank x) = c.name.toList := by
      rw [columnMain, he]
      exact takeWhile_append_stop hnb hstop
    have h2 : (columnMain c).dropWhile (fun x => !isBlank x) = ' ' :: (typeName c.type).toList := by
      rw [columnMain, he]
      exact dropWhile_append_stop hnb hstop
    rw [nameAndType?, hq, h1, h2, ht, hs]
    simp [dropQuotes_of_head ha]
  · have hs : columnMain c = '"' :: (c.name.toList ++ '"' :: ' ' :: (typeName c.type).toList) := by
      simp [columnMain, he]
    by_cases hq : '"' ∈ c.name.toList
    · have hnb : ∀ x ∈ '"' :: (c.name.toList ++ ['"']), (!isBlank x) = true := by
        intro x hx
        simp only [List.mem_cons, List.mem_append, List.not_mem_nil, or_false] at hx
        rcases hx with rfl | hx | rfl
        · rfl
        · simp [h.unbroken hq x hx]
        · rfl
      have hword : columnMain c = '"' :: (c.name.toList ++ ['"']) ++ ' ' :: (typeName c.type).toList := by
        simp [hs]
      have h1 := takeWhile_append_stop hnb hstop
      have h2 := dropWhile_append_stop hnb hstop
      rw [nameAndType?, hs, quotedName?_bind_of_mem hq (h.unbroken hq), ← hs, hword, h1, h2, ht]
      simp [dropQuotes_quoted h.ne_nil]
    · rw [nameAndType?, hs, quotedName?_quoted h.ne_nil hq]
      simp [ht]

/-- A column line is read with its name, its type and the flags that DBML keeps. -/
theorem read_columnLine {c : Column} (h : Legible c.name) :
    ColumnLine.read (columnLine c) = .ok ⟨keptColumn c, none⟩ := by
  rw [ColumnLine.read, splitSettings_columnLine h]
  simp only [nameAndType?_columnMain h, columnType?_typeName, settingsOf_written]
  simp [keptColumn]

theorem getLast?_columnLine (c : Column) : (columnLine c).getLast? = some ']' := by
  have : columnLine c = (writtenName c.name).toList ++
      ' ' :: ((typeName c.type).toList ++ ' ' :: '[' :: settingsInside c.constraints) ++ [']'] := by
    simp [columnLine]
  rw [this, List.getLast?_concat]

/-- A column is never a header, whatever it is called: it ends in the bracket of its settings. -/
theorem header?_columnLine (c : Column) : header? (columnLine c) = none := by
  cases hh : header? (columnLine c) with
  | none => rfl
  | some hd => exact absurd (getLast?_columnLine c) (getLast?_of_header? hh)

theorem head?_columnLine {c : Column} (h : Legible c.name) :
    ∃ a, (columnLine c).head? = some a ∧ (a = '"' ∨ isWord a = true) := by
  obtain ⟨a, s, hs, ha⟩ := head_writtenName h.ne_nil
  exact ⟨a, by simp [columnLine, hs], ha⟩

theorem tight_columnLine {c : Column} (h : Legible c.name) : Tight (columnLine c) := by
  obtain ⟨a, ha, hac⟩ := head?_columnLine h
  exact tight_of_ends ha (getLast?_columnLine c) (isBlank_of_head hac) (by decide)

theorem oneLine_columnLine {c : Column} (h : Legible c.name) : OneLine (columnLine c) := by
  obtain ⟨-, -, hi⟩ := settingsInside_facts c.constraints
  have ht := oneLine_of_word (typeName_facts c.type).2
  simp only [columnLine, oneLine_append, oneLine_cons]
  exact ⟨oneLine_writtenName h.oneLine, rfl, ht, rfl, rfl, hi, rfl, oneLine_nil⟩

/-! ## References -/

/-- A column with its table, as it is written. -/
def endLine (e : ColumnName) : List Char :=
  (writtenName e.table).toList ++ '.' :: (writtenName e.column).toList

/-- The sign of a cardinality. -/
def signOf : Cardinality → Sign
  | .oneToOne => .one
  | .oneToMany => .less
  | .manyToMany => .many

/-- The line of a reference. -/
def refLine (r : Ref) : List Char :=
  ['R', 'e', 'f', ':', ' '] ++
    (endLine r.source ++ ' ' :: ((signText r.cardinality).toList ++ ' ' :: endLine r.target))

/-- Both names of a column can be written. -/
def WritableEnd (e : ColumnName) : Prop := Writable e.table ∧ Writable e.column

theorem columnName?_written {e : ColumnName} (h : WritableEnd e) {rest : List Char}
    (hr : ∀ c ∈ rest.head?, isWord c = false) :
    columnName? (endLine e ++ rest) = some (e, rest) := by
  have hs : endLine e ++ rest =
      (writtenName e.table).toList ++ '.' :: ((writtenName e.column).toList ++ rest) := by
    simp [endLine]
  have hdot : ∀ (s : List Char), ∀ c ∈ ('.' :: s).head?, isWord c = false := by
    intro s c hc
    cases hc
    decide
  rw [hs, columnName?, name?_written h.1 (hdot _)]
  simp [name?_written h.2 hr]

/-- A sign with blanks around it is read with the reference that it makes. -/
theorem sign?_written (k : Cardinality) (s : List Char) :
    sign? ((signText k).toList ++ ' ' :: s) = some (signOf k, ' ' :: s) := by
  cases k <;> rfl

theorem head?_endLine {e : ColumnName} (h : WritableEnd e) :
    ∃ a, (endLine e).head? = some a ∧ (a = '"' ∨ isWord a = true) := by
  obtain ⟨a, s, hs, ha⟩ := head_writtenName h.1.ne_nil
  exact ⟨a, by simp [endLine, hs], ha⟩

theorem trimStart_endLine {e : ColumnName} (h : WritableEnd e) (rest : List Char) :
    trimStart (' ' :: (endLine e ++ rest)) = endLine e ++ rest := by
  obtain ⟨a, ha, hac⟩ := head?_endLine h
  refine trimStart_append (a := [' ']) (s := endLine e ++ rest) (by decide) ?_
  rw [List.head?_append, ha]
  simpa using isBlank_of_head hac

theorem sign_ref (r : Ref) : (signOf r.cardinality).ref r.source r.target = r := by
  obtain ⟨k, s, t⟩ := r
  cases k <;> rfl

/-- A reference is read with its cardinality and the four names. -/
theorem ref?_refLine {r : Ref} (hs : WritableEnd r.source) (ht : WritableEnd r.target) :
    ref? (refLine r) = some r := by
  have hsign : ∃ a s, (signText r.cardinality).toList = a :: s ∧ isBlank a = false := by
    cases r.cardinality
    · exact ⟨_, _, rfl, by decide⟩
    · exact ⟨_, _, rfl, by decide⟩
    · exact ⟨_, _, rfl, by decide⟩
  obtain ⟨a, s, ha, hb⟩ := hsign
  have hr : refText? (refLine r) = some (' ' :: (endLine r.source ++
      ' ' :: ((signText r.cardinality).toList ++ ' ' :: endLine r.target))) := rfl
  have hmid : trimStart (' ' :: ((signText r.cardinality).toList ++ ' ' :: endLine r.target)) =
      (signText r.cardinality).toList ++ ' ' :: endLine r.target := by
    refine trimStart_append (a := [' ']) (by decide) ?_
    rw [ha]
    simpa using hb
  have hend := trimStart_endLine ht []
  have hcol : columnName? (endLine r.target ++ []) = some (r.target, []) :=
    columnName?_written ht (by simp)
  rw [List.append_nil] at hend hcol
  have hsp : ∀ c ∈ (' ' :: ((signText r.cardinality).toList ++ ' ' :: endLine r.target)).head?,
      isWord c = false := by
    intro c hc
    cases hc
    decide
  rw [ref?, hr]
  simp only [Option.map_some, trimStart_endLine hs, Option.bind_some, columnName?_written hs hsp, hmid,
    sign?_written, hend, hcol]
  simp [isBlankText, sign_ref]

end Erd.Dbml
