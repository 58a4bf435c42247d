import Erd.Proofs.Text
import Erd.Sql.TableDefinition

/-!
# Declarations of columns

A column is declared by its name, blanks and a type, and then come its settings. The name may be between quotes.
A name without quotes may be a word that announces a key, a check or an index; such a word is only taken for one if
another word or a parenthesis follows, and no type is called like one of these words. So what is declared with
a type is a column, whatever word its name is, unless it is one that names a table option.

**Results.**
* `columnOf_of_form`, `columnOf_of_not_form`: what has the form of a column is one, unless it is called like a table
  option.
* `read_of_declares`, `declares_of_read`: the definitions that are read as columns.
* `read_declared`: a word with a type is read as a column of that name.
* `NameAndType.declares_iff`, `NameAndType.lost_iff`: a name with a type declares a column of that name or is lost.
-/
namespace Erd.Sql

open Text

/-! ## The form of a column -/

/-- A name as it is spelled: between two equal quotes, or without any blanks and quotes. -/
inductive Spells (name : List Char) : List Char → Prop where
  | quoted {q : Char} : isQuote q = true → name ≠ [] → q ∉ name → Spells name (q :: (name ++ [q]))
  | plain : name ≠ [] → (∀ c ∈ name, isBlank c = false ∧ isQuote c = false) → Spells name name

/-- The text starts with what a type may start with. -/
def StartsType (s : List Char) : Prop := ∃ c rest, s = c :: rest ∧ (c.isAlpha = true ∨ c = '_')

/-- The form of a column: a name, at least one blank, and what may be a type with settings. -/
def HasForm (s name : List Char) : Prop :=
  ∃ spelled b rest, Spells name spelled ∧ s = spelled ++ b :: rest ∧ isBlank b = true ∧ StartsType (trimStart rest)

theorem spelling?_isSome_iff {s : List Char} : (spelling? s).isSome ↔ StartsType s := by
  cases s with
  | nil => simp [spelling?, StartsType]
  | cons c s =>
    have hhead : StartsType (c :: s) ↔ (c.isAlpha || c = '_') = true := by simp [StartsType]
    rw [hhead, spelling?]
    split
    · next h =>
      simp only
      split
      · split <;> simp [h]
      · simp [h]
    · next h => simp [h]

instance (s : List Char) : Decidable (StartsType s) := decidable_of_iff _ spelling?_isSome_iff

theorem isQuote_iff {q : Char} : isQuote q = true ↔ q = '"' ∨ q = '\'' ∨ q = '\x60' := by
  simp [isQuote, or_assoc]

theorem Spells.ne_nil {name spelled : List Char} (h : Spells name spelled) : name ≠ [] := by
  cases h with
  | quoted _ hne => exact hne
  | plain hne => exact hne

/-- Before a blank the name is found that is spelled. -/
theorem columnName?_of_spells {name spelled : List Char} (h : Spells name spelled) {b : Char}
    (hb : isBlank b = true) (rest : List Char) : columnName? (spelled ++ b :: rest) = some (name, b :: rest) := by
  cases h with
  | @quoted q hq hne hmem =>
    obtain ⟨c, name, rfl⟩ := List.exists_cons_of_ne_nil hne
    have hall : ∀ x ∈ c :: name, decide (x ≠ q) = true := fun x hx =>
      decide_eq_true fun heq => hmem (heq ▸ hx)
    have hstop : ∀ x ∈ (q :: b :: rest).head?, decide (x ≠ q) = false := by
      intro x hx
      cases hx
      simp
    have htake : (c :: name ++ q :: b :: rest).takeWhile (· ≠ q) = c :: name := takeWhile_append_stop hall hstop
    have hdrop : (c :: name ++ q :: b :: rest).dropWhile (· ≠ q) = q :: b :: rest :=
      dropWhile_append_stop hall hstop
    have htext : q :: (c :: name ++ [q]) ++ b :: rest = q :: (c :: name ++ q :: b :: rest) := by simp
    rw [htext, columnName?, if_pos hq, htake, hdrop]
  | plain hne hplain =>
    obtain ⟨a, s, hs⟩ := List.exists_cons_of_ne_nil hne
    have hall : ∀ x ∈ name, (!isBlank x && !isQuote x) = true := fun x hx => by simp [hplain x hx]
    have hstop : ∀ x ∈ (b :: rest).head?, (!isBlank x && !isQuote x) = false := by
      intro x hx
      cases hx
      simp [hb]
    have htake : (name ++ b :: rest).takeWhile (fun x => !isBlank x && !isQuote x) = name :=
      takeWhile_append_stop hall hstop
    have hdrop : (name ++ b :: rest).dropWhile (fun x => !isBlank x && !isQuote x) = b :: rest :=
      dropWhile_append_stop hall hstop
    have ha : isQuote a = false := (hplain a (by rw [hs]; exact List.mem_cons_self)).2
    have hcons : name ++ b :: rest = a :: (s ++ b :: rest) := by rw [hs, List.cons_append]
    rw [hcons, columnName?, if_neg (by simp [ha]), ← hcons, htake, hdrop, hs]

/-- A name that is found is spelled there. -/
theorem spells_of_columnName? {s name rest : List Char} (h : columnName? s = some (name, rest)) :
    ∃ spelled, Spells name spelled ∧ s = spelled ++ rest := by
  unfold columnName? at h
  split at h
  · cases h
  next q inside =>
  split at h
  · next hq =>
    split at h
    · next c word d left htake hdrop =>
      cases h
      have hmem : q ∉ c :: word := by
        intro hm
        rw [← htake] at hm
        simpa using List.mem_takeWhile_imp hm
      have hd : d = q := by
        have hhead := List.head?_dropWhile_not (fun x => decide (x ≠ q)) inside
        rw [hdrop] at hhead
        simpa using hhead
      refine ⟨_, .quoted hq (List.cons_ne_nil c word) hmem, ?_⟩
      have hinside : inside = c :: word ++ q :: rest := by
        rw [← List.takeWhile_append_dropWhile (p := fun x => decide (x ≠ q)) (l := inside), htake, hdrop, hd]
      rw [hinside]
      simp
    · cases h
  · split at h
    · cases h
    · next htake =>
      cases h
      refine ⟨_, .plain htake fun c hc => ?_, List.takeWhile_append_dropWhile.symm⟩
      simpa using List.mem_takeWhile_imp hc

theorem skipBlanks?_eq_some_iff {s rest : List Char} :
    skipBlanks? s = some rest ↔ ∃ b left, s = b :: left ∧ isBlank b = true ∧ trimStart left = rest := by
  constructor
  · intro h
    cases s with
    | nil => cases h
    | cons b left => exact ⟨b, left, rfl, by simpa [skipBlanks?] using h⟩
  · rintro ⟨b, left, rfl, hb, rfl⟩
    simp [skipBlanks?, hb]

/-- What has the form of a column is one, unless it is called like a table option. -/
theorem columnOf_spelled {name spelled : List Char} (h : Spells name spelled) {b : Char} (hb : isBlank b = true)
    {rest spelling settings : List Char} (hs : spelling? (trimStart rest) = some (spelling, settings)) :
    columnOf (spelled ++ b :: rest) =
      if String.ofList (upper name) ∈ tableOptions then .tableOption
      else .column (columnDefinition name spelling settings) := by
  have hskip : skipBlanks? (b :: rest) = some (trimStart rest) := by simp [skipBlanks?, hb]
  simp only [columnOf, columnName?_of_spells h hb, hskip, Option.bind_some, hs, List.contains_iff_mem]

theorem columnOf_of_form {s name : List Char} (h : HasForm s name) :
    ∃ spelling settings, columnOf s =
      if String.ofList (upper name) ∈ tableOptions then .tableOption
      else .column (columnDefinition name spelling settings) := by
  obtain ⟨spelled, b, rest, hspells, rfl, hb, htype⟩ := h
  obtain ⟨⟨spelling, settings⟩, hs⟩ := Option.isSome_iff_exists.mp (spelling?_isSome_iff.mpr htype)
  exact ⟨spelling, settings, columnOf_spelled hspells hb hs⟩

/-- What has not the form of a column is not understood. -/
theorem columnOf_of_not_form {s : List Char} (h : ∀ name, ¬ HasForm s name) : columnOf s = .unreadable := by
  unfold columnOf
  split
  · rfl
  next name rest hname =>
  split
  · rfl
  next spelling settings hs =>
  obtain ⟨u, hu, hs⟩ := Option.bind_eq_some_iff.mp hs
  obtain ⟨b, left, rfl, hb, rfl⟩ := skipBlanks?_eq_some_iff.mp hu
  obtain ⟨spelled, hspells, rfl⟩ := spells_of_columnName? hname
  exact absurd ⟨spelled, b, left, hspells, rfl, hb, spelling?_isSome_iff.mp (by rw [hs]; rfl)⟩ (h name)

/-- A text has the form of at most one column. -/
theorem HasForm.unique {s name name' : List Char} (h : HasForm s name) (h' : HasForm s name') : name' = name := by
  obtain ⟨spelled, b, rest, hspells, rfl, hb, -⟩ := h
  obtain ⟨spelled', b', rest', hspells', heq, hb', -⟩ := h'
  have hfound := columnName?_of_spells hspells hb rest
  rw [heq, columnName?_of_spells hspells' hb'] at hfound
  exact congrArg Prod.fst (Option.some.inj hfound)

/-! ## Items -/

/-- The text is that of a key, a unique constraint, a check or an index. -/
def IsItem (s : List Char) : Prop :=
  (primaryKey? s).isSome ∨ (foreignKey? s).isSome ∨ (unique? s).isSome ∨ isCheck s = true ∨ isIndex s = true

instance (s : List Char) : Decidable (IsItem s) :=
  inferInstanceAs (Decidable (_ ∨ _))

/-- What is no item is read by its form. -/
theorem classify_of_not_item {s : List Char} (h : ¬ IsItem s) : classify s = columnOf s := by
  simp only [IsItem, not_or, Bool.not_eq_true, Option.isSome_eq_false_iff, Option.isNone_iff_eq_none] at h
  obtain ⟨hprimary, hforeign, hunique, hcheck, hindex⟩ := h
  simp [classify, hprimary, hforeign, hunique, hcheck, hindex]

theorem dropConstraintNames_eq_self {s : List Char} (h : dropConstraintName? s = none) :
    dropConstraintNames s = s := by
  rw [dropConstraintNames]
  split
  · next hs =>
    rw [h] at hs
    cases hs
  · rfl

theorem dropConstraintNames_of_some {s rest : List Char} (h : dropConstraintName? s = some rest) :
    dropConstraintNames s = dropConstraintNames rest := by
  rw [dropConstraintNames.eq_1 s]
  split
  · next hs =>
    rw [h] at hs
    rw [Option.some.inj hs]
  · next hs =>
    rw [h] at hs
    cases hs

/-! ## Names between quotes -/

section Quoted

variable {q : Char} (hq : isQuote q = true)

include hq

/-- No keyword starts with a quote. -/
theorem keyword_quote {k : String} (hk : ∃ a ks, k.toList = a :: ks ∧ isQuote a = false) (s : List Char) :
    keyword k (q :: s) = none := by
  obtain ⟨a, ks, hks, ha⟩ := hk
  have hfold : foldLatin q = q := by rcases isQuote_iff.mp hq with rfl | rfl | rfl <;> rfl
  have hne : q ≠ a := by
    rintro rfl
    rw [hq] at ha
    cases ha
  rw [keyword, hks, dropKeyword, hfold, if_neg hne]

theorem not_item_quote (s : List Char) : ¬ IsItem (q :: s) := by
  have hnone {k : String} (hk : ∃ a ks, k.toList = a :: ks ∧ isQuote a = false) : keyword k (q :: s) = none :=
    keyword_quote hq hk s
  have hphrase {k : String} (hk : ∃ a ks, k.toList = a :: ks ∧ isQuote a = false) :
      phrase [k, "key"] (q :: s) = none := by
    rw [phrase, hnone hk]
    · rfl
    · simp
  simp [IsItem, primaryKey?, foreignKey?, unique?, isCheck, isIndex, index?, indexWord?,
    hphrase (k := "primary") ⟨_, _, rfl, by decide⟩, hphrase (k := "foreign") ⟨_, _, rfl, by decide⟩,
    hnone (k := "unique") ⟨_, _, rfl, by decide⟩, hnone (k := "check") ⟨_, _, rfl, by decide⟩,
    hnone (k := "fulltext") ⟨_, _, rfl, by decide⟩, hnone (k := "spatial") ⟨_, _, rfl, by decide⟩,
    hnone (k := "key") ⟨_, _, rfl, by decide⟩, hnone (k := "index") ⟨_, _, rfl, by decide⟩]

theorem dropConstraintNames_quote (s : List Char) : dropConstraintNames (q :: s) = q :: s := by
  refine dropConstraintNames_eq_self ?_
  rw [dropConstraintName?, keyword_quote hq ⟨_, _, rfl, by decide⟩]
  rfl

end Quoted

/-! ## Types after words -/

/-- The text starts with the word of a type, alone or with a parenthesis after it. -/
structure TypeLed (s : List Char) : Prop where
  word : isTypeWord (leadingWord s) = true
  stop : ∀ c ∈ (afterWord s).head?, isBlank c = true ∨ c = '('

section TypeLed

variable {s : List Char}

/-- A type word is told by its capital letters. -/
theorem isTypeWord_leadingWord (s : List Char) :
    isTypeWord (leadingWord s) = typeWords.contains (String.ofList (upper (leadingWord s))) := by
  have htight : Tight (leadingWord s) := tight_of_word fun c hc => List.mem_takeWhile_imp hc
  rw [isTypeWord, trim_eq_self htight]

/-- The forms of the letters by which the words for a key and an index are told from all types. -/
def formsOf : Char → List Char
  | 'k' => ['k', 'K', '\u212A']
  | 'i' => ['i', 'I', '\u0130', '\u0131']
  | 'n' => ['n', 'N']
  | 'd' => ['d', 'D']
  | _ => []

theorem mem_formsOf_ascii : ∀ k ∈ ['k', 'i', 'n', 'd'], ∀ n < 128, foldLatin (Char.ofNat n) = k →
    Char.ofNat n ∈ formsOf k := by
  decide +kernel

theorem mem_formsOf {c k : Char} (hk : k ∈ ['k', 'i', 'n', 'd']) (h : foldLatin c = k) : c ∈ formsOf k := by
  by_cases hc : c.toNat < 128
  · have hform := mem_formsOf_ascii k hk c.toNat hc
    rw [Char.ofNat_toNat] at hform
    exact hform h
  · unfold foldLatin at h
    rw [if_neg hc] at h
    split at h
    · next hi =>
      subst h
      rcases (by simpa using hi : c = '\u0130' ∨ c = '\u0131') with rfl | rfl <;> decide
    · split at h
      · subst h
        exact absurd hk (by decide)
      · split at h
        · next hK =>
          subst h
          subst hK
          decide
        · subst h
          have hascii : ∀ x ∈ ['k', 'i', 'n', 'd'], x.toNat < 128 := by decide
          exact absurd (hascii c hk) hc

theorem forms_facts : ∀ k ∈ ['k', 'i', 'n', 'd'], ∀ c ∈ formsOf k, isWord c = true := by decide +kernel

theorem leadingWord_cons {c : Char} (hc : isWord c = true) (s : List Char) :
    leadingWord (c :: s) = c :: leadingWord s := List.takeWhile_cons_of_pos hc

/-- No type is called like the word for a key. -/
theorem not_isTypeWord_of_key {rest : List Char} (h : keyword "key" s = some rest) :
    isTypeWord (leadingWord s) = false := by
  have hkey : "key".toList = ['k', 'e', 'y'] := by decide
  rw [keyword, hkey] at h
  obtain ⟨taken, rfl, hfold⟩ := dropKeyword_eq_some h
  obtain ⟨c, taken, rfl, hc, -⟩ := List.map_eq_cons_iff.mp hfold
  have hform := mem_formsOf (by decide) hc
  have hne : ∀ t ∈ typeWords, t.toList.head? ≠ some 'K' ∧ t.toList.head? ≠ some '\u212A' := by decide +kernel
  have hupper : ∀ c ∈ formsOf 'k', upperChar c = ['K'] ∨ upperChar c = ['\u212A'] := by decide +kernel
  rw [List.cons_append, isTypeWord_leadingWord, leadingWord_cons (forms_facts _ (by decide) c hform)]
  simp only [List.contains_eq_mem, decide_eq_false_iff_not]
  intro hmem
  obtain ⟨hK, hkelvin⟩ := hne _ hmem
  rw [String.toList_ofList, upper, List.flatMap_cons] at hK hkelvin
  rcases hupper c hform with hu | hu
  · exact hK (by rw [hu]; rfl)
  · exact hkelvin (by rw [hu]; rfl)

/-- Nor like the word for an index. -/
theorem not_isTypeWord_of_index {rest : List Char} (h : keyword "index" s = some rest) :
    isTypeWord (leadingWord s) = false := by
  have hindex : "index".toList = ['i', 'n', 'd', 'e', 'x'] := by decide
  rw [keyword, hindex] at h
  obtain ⟨taken, rfl, hfold⟩ := dropKeyword_eq_some h
  obtain ⟨i, taken, rfl, hi, hfold⟩ := List.map_eq_cons_iff.mp hfold
  obtain ⟨n, taken, rfl, hn, hfold⟩ := List.map_eq_cons_iff.mp hfold
  obtain ⟨d, taken, rfl, hd, -⟩ := List.map_eq_cons_iff.mp hfold
  have hi := mem_formsOf (by decide) hi
  have hn := mem_formsOf (by decide) hn
  have hd := mem_formsOf (by decide) hd
  have hne : ∀ t ∈ typeWords, (t.toList.drop 1).take 2 ≠ ['N', 'D'] := by decide +kernel
  have hupperI : ∀ c ∈ formsOf 'i', (upperChar c).length = 1 := by decide +kernel
  have hupperN : ∀ c ∈ formsOf 'n', upperChar c = ['N'] := by decide +kernel
  have hupperD : ∀ c ∈ formsOf 'd', upperChar c = ['D'] := by decide +kernel
  simp only [List.cons_append]
  rw [isTypeWord_leadingWord, leadingWord_cons (forms_facts _ (by decide) i hi),
    leadingWord_cons (forms_facts _ (by decide) n hn), leadingWord_cons (forms_facts _ (by decide) d hd)]
  simp only [List.contains_eq_mem, decide_eq_false_iff_not]
  intro hmem
  refine hne _ hmem ?_
  obtain ⟨u, hu⟩ := List.length_eq_one_iff.mp (hupperI i hi)
  rw [String.toList_ofList, upper, List.flatMap_cons, List.flatMap_cons, List.flatMap_cons, hu, hupperN n hn,
    hupperD d hd]
  rfl

/-- The word of a type announces no key and no index. -/
theorem indexWord?_of_typeLed (h : TypeLed s) : keyword "key" s = none ∧ indexWord? s = none := by
  have hkey : keyword "key" s = none := by
    cases hk : keyword "key" s with
    | none => rfl
    | some rest => exact absurd h.word (by simp [not_isTypeWord_of_key hk])
  have hindex : keyword "index" s = none := by
    cases hk : keyword "index" s with
    | none => rfl
    | some rest => exact absurd h.word (by simp [not_isTypeWord_of_index hk])
  exact ⟨hkey, by rw [indexWord?, hkey, hindex]; rfl⟩

end TypeLed

/-! ## Names without quotes -/

/-- The text starts with a character of words. -/
def StartsWord (s : List Char) : Prop := ∃ c rest, s = c :: rest ∧ isWord c = true

theorem startsWord_of_startsType {t : List Char} (h : StartsType t) : StartsWord t := by
  obtain ⟨c, rest, rfl, hc⟩ := h
  refine ⟨c, rest, rfl, ?_⟩
  rcases hc with hc | rfl
  · have hascii : c.toNat < 128 := by
      rcases Bool.or_eq_true_iff.mp hc with hupper | hlower
      · have hle : c.val ≤ 'Z'.val := (of_decide_eq_true hupper).2
        exact lt_of_le_of_lt (UInt32.le_iff_toNat_le.mp hle) (by decide)
      · have hle : c.val ≤ 'z'.val := of_decide_eq_true (Bool.and_eq_true_iff.mp hlower).2
        exact lt_of_le_of_lt (UInt32.le_iff_toNat_le.mp hle) (by decide)
    simp [isWord, hascii, Char.isAlphanum, hc]
  · rfl

/-- The words that announce a key, a unique constraint, a check or an index. -/
def itemWords : List String := ["primary", "foreign", "unique", "check", "fulltext", "spatial", "key", "index"]

theorem isBlank_itemWords : ∀ k ∈ itemWords, ∀ x ∈ k.toList, isBlank x = false := by decide +kernel

/-- The text may be the type after a name. Where the name announces an item, the type is a known one. -/
structure TypeAfter (name s : List Char) : Prop where
  starts : StartsType s
  led : ∀ k ∈ itemWords, keyword k name = some [] → TypeLed s

/-! What a keyword leaves of the name stands before the blank. If it leaves nothing, the type is a known one. -/

section Left

variable {b : Char} (hb : isBlank b = true) {s : List Char} (hs : StartsWord (trimStart s)) {left : List Char}
  (ht : left = [] → TypeLed (trimStart s)) (hl : ∀ x ∈ left, isWord x = true)

include hb hl

theorem skipBlanks?_left : skipBlanks? (left ++ b :: s) = if left = [] then some (trimStart s) else none := by
  cases left with
  | nil => simp [skipBlanks?, hb]
  | cons a left =>
    rw [if_neg (by simp)]
    exact skipBlanks?_of_head (isBlank_of_isWord (hl a List.mem_cons_self))

include ht in
/-- A second word for a key or an index is only looked for at the type. -/
theorem indexWord?_left : (skipBlanks? (left ++ b :: s)).bind indexWord? = none := by
  rw [skipBlanks?_left hb hl]
  split
  · next hleft => exact (indexWord?_of_typeLed (ht hleft)).2
  · rfl

include hs

/-- After what is left of a name there is no parenthesis. -/
theorem trimStart_left : ∃ a u, trimStart (left ++ b :: s) = a :: u ∧ a ≠ '(' := by
  cases left with
  | nil =>
    obtain ⟨a, u, hu, ha⟩ := hs
    refine ⟨a, u, ?_, ne_of_isWord ha (by decide)⟩
    rw [← hu]
    exact List.dropWhile_cons_of_pos hb
  | cons a left =>
    have ha := hl a List.mem_cons_self
    refine ⟨a, left ++ b :: s, ?_, ne_of_isWord ha (by decide)⟩
    rw [List.cons_append]
    exact trimStart_eq_self (by intro x hx; cases hx; exact isBlank_of_isWord ha)

theorem parenthesized?_left : parenthesized? (left ++ b :: s) = none := by
  obtain ⟨a, u, hu, ha⟩ := trimStart_left hb hs hl
  rw [parenthesized?, hu]
  split
  · next h => exact absurd (List.cons.inj h).1 ha
  · rfl

include ht

/-- What stands in the place of the name of an index is the word of a type. -/
theorem indexRest?_left : ∀ name ∈ indexRest? (left ++ b :: s), ∃ word, name = some word ∧ isTypeWord word = true := by
  intro name hname
  unfold indexRest? at hname
  rw [indexName, skipBlanks?_left hb hl] at hname
  by_cases hleft : left = []
  · have hpart : ∀ x ∈ leadingWord (trimStart s), isNamePart x = true := fun x hx => by
      have hw : isWord x = true := List.mem_takeWhile_imp hx
      simp [isNamePart, isBlank_of_isWord hw, ne_of_isWord hw (by decide : isWord '(' = false)]
    have hstop : ∀ x ∈ (afterWord (trimStart s)).head?, isNamePart x = false := by
      intro x hx
      rcases (ht hleft).stop x hx with hx | rfl
      · simp [isNamePart, hx]
      · rfl
    have htake : (trimStart s).takeWhile isNamePart = leadingWord (trimStart s) := by
      have happend := takeWhile_append_stop hpart hstop
      rwa [leadingWord_append_afterWord] at happend
    have hne : (leadingWord (trimStart s)).isEmpty = false := by
      obtain ⟨a, u, hu, ha⟩ := hs
      rw [hu, leadingWord_cons ha]
      rfl
    rw [if_pos hleft] at hname
    simp only [htake, hne, Bool.false_eq_true, if_false] at hname
    split at hname
    · split at hname
      · split at hname
        · exact ⟨_, (Option.some.inj hname).symm, (ht hleft).word⟩
        · cases hname
      · cases hname
    · cases hname
  · obtain ⟨a, u, hu, ha⟩ := trimStart_left hb hs hl
    rw [if_neg hleft] at hname
    simp only [hu] at hname
    split at hname
    · next h => exact absurd (List.cons.inj h).1 ha
    · cases hname

end Left

section Declared

variable {name : List Char} (hname : ∀ c ∈ name, isWord c = true) {b : Char} (hb : isBlank b = true) {s : List Char}
  (hs : StartsWord (trimStart s)) (hled : ∀ k ∈ itemWords, keyword k name = some [] → TypeLed (trimStart s))

include hname hb hled

/-- What a word for an item leaves where a name stands. -/
theorem exists_left {k : String} (hk : k ∈ itemWords) {rest : List Char}
    (hr : keyword k (name ++ b :: s) = some rest) :
    ∃ left, rest = left ++ b :: s ∧ (left = [] → TypeLed (trimStart s)) ∧ ∀ x ∈ left, isWord x = true := by
  rw [keyword_append_blank (isBlank_itemWords k hk) hb] at hr
  obtain ⟨left, hl, rfl⟩ := Option.map_eq_some_iff.mp hr
  exact ⟨left, rfl, fun hleft => hled k hk (hleft ▸ hl), isWord_of_dropKeyword hname hl⟩

theorem phrase_key_declared {k : String} (hk : k ∈ itemWords) : phrase [k, "key"] (name ++ b :: s) = none := by
  rw [phrase, keyword_bind_skipBlanks? (isBlank_itemWords k hk) hb hname]
  · split
    · next hword => exact (indexWord?_of_typeLed (hled k hk hword)).1
    · rfl
  · simp

include hs

theorem unique?_declared : unique? (name ++ b :: s) = none := by
  unfold unique?
  split
  · rfl
  · next rest hr =>
    obtain ⟨left, rfl, hleft, hl⟩ := exists_left hname hb hled (by decide) hr
    rw [indexWord?_left hb hleft hl]
    simp only [parenthesized?_left hb hs hl, Option.map_none]

theorem isCheck_declared : isCheck (name ++ b :: s) = false := by
  unfold isCheck
  cases hr : keyword "check" (name ++ b :: s) with
  | none => rfl
  | some rest =>
    obtain ⟨left, rfl, -, hl⟩ := exists_left hname hb hled (by decide) hr
    obtain ⟨a, u, hu, ha⟩ := trimStart_left hb hs hl
    rw [Option.map_some, hu]
    split
    · next he => exact absurd (List.cons.inj (Option.some.inj he)).1 ha
    · rfl

/-- Where the name of a column announces an index, the name of the index would be a type. -/
theorem index?_declared : ∀ n ∈ index? (name ++ b :: s), ∃ word, n = some word ∧ isTypeWord word = true := by
  have left_of {k l : String} (hk : k ∈ itemWords) (hl : l ∈ itemWords) {rest : List Char}
      (hr : (keyword k (name ++ b :: s)).or (keyword l (name ++ b :: s)) = some rest) :
      ∃ left, rest = left ++ b :: s ∧ (left = [] → TypeLed (trimStart s)) ∧ ∀ x ∈ left, isWord x = true := by
    rcases Option.or_eq_some_iff.mp hr with hr | ⟨-, hr⟩
    · exact exists_left hname hb hled hk hr
    · exact exists_left hname hb hled hl hr
  intro n hn
  unfold index? at hn
  split at hn
  · next rest hr =>
    obtain ⟨left, rfl, hleft, hl⟩ := left_of (by decide) (by decide) hr
    rw [indexWord?_left hb hleft hl] at hn
    exact indexRest?_left hb hs hleft hl n hn
  · obtain ⟨rest, hr, hn⟩ := Option.bind_eq_some_iff.mp hn
    obtain ⟨left, rfl, hleft, hl⟩ := left_of (by decide) (by decide) hr
    exact indexRest?_left hb hs hleft hl n hn

theorem isIndex_declared : isIndex (name ++ b :: s) = false := by
  unfold isIndex
  split
  · next n hn =>
    obtain ⟨word, hword, htype⟩ := index?_declared hname hb hs hled _ hn
    cases hword
    simp [htype]
  · next hn =>
    obtain ⟨word, hword, -⟩ := index?_declared hname hb hs hled _ hn
    cases hword
  · rfl

/-- A word with a type after it is no item, whatever word it is. -/
theorem not_item_declared : ¬ IsItem (name ++ b :: s) := by
  simp [IsItem, primaryKey?, foreignKey?, phrase_key_declared hname hb hled (k := "primary") (by decide),
    phrase_key_declared hname hb hled (k := "foreign") (by decide), unique?_declared hname hb hs hled,
    isCheck_declared hname hb hs hled, isIndex_declared hname hb hs hled]

omit hs hled in
/-- A word with a type announces no name of a constraint, unless it is the word for that. -/
theorem dropConstraintNames_declared (hc : keyword "constraint" name ≠ some []) :
    dropConstraintNames (name ++ b :: s) = name ++ b :: s := by
  refine dropConstraintNames_eq_self ?_
  rw [dropConstraintName?, keyword_bind_skipBlanks? (by decide) hb hname, if_neg hc]

omit hb hs hled in
theorem spells_declared (hne : name ≠ []) : Spells name name :=
  .plain hne fun c hm => ⟨isBlank_of_isWord (hname c hm), isQuote_of_isWord (hname c hm)⟩

omit hs hled in
/-- A word with a type declares a column, unless it announces a constraint or names a table option. -/
theorem read_declared (ht : TypeAfter name (trimStart s)) (hne : name ≠ []) (hc : keyword "constraint" name ≠ some [])
    (ho : String.ofList (upper name) ∉ tableOptions) {spelling settings : List Char}
    (hs : spelling? (trimStart s) = some (spelling, settings)) :
    Definition.read (name ++ b :: s) = .column (columnDefinition name spelling settings) := by
  rw [Definition.read, dropConstraintNames_declared hname hb hc, classify_of_not_item
    (not_item_declared hname hb (startsWord_of_startsType ht.starts) ht.led),
    columnOf_spelled (spells_declared hname hne) hb hs, if_neg ho]

end Declared

/-- After the word that announces the name of a constraint and blanks any word is the name of one. -/
theorem dropConstraintName?_named {w g n rest : List Char} (hw : ∀ c ∈ w, isWord c = true)
    (hc : keyword "constraint" w = some []) {b b' : Char} (hb : isBlank b = true) (hg : ∀ c ∈ g, isBlank c = true)
    (hne : n ≠ []) (hn : ∀ c ∈ n, isBlank c = false) (hb' : isBlank b' = true) :
    dropConstraintName? (w ++ b :: (g ++ (n ++ b' :: rest))) = some (trimStart rest) := by
  obtain ⟨c, n, rfl⟩ := List.exists_cons_of_ne_nil hne
  obtain ⟨hhead, htail⟩ := List.forall_mem_cons.mp hn
  have htrim : trimStart (g ++ (c :: n ++ b' :: rest)) = c :: (n ++ b' :: rest) :=
    trimStart_append hg (by intro x hx; cases hx; exact hhead)
  have hdrop : (n ++ b' :: rest).dropWhile (fun c => !isBlank c) = b' :: rest :=
    dropWhile_append_stop (fun x hx => by simp [htail x hx]) (by intro x hx; cases hx; simp [hb'])
  rw [dropConstraintName?, keyword_bind_skipBlanks? (by decide) hb hw, if_pos hc, htrim]
  simp only [hdrop]
  simp [skipBlanks?, hb']

theorem read_constraint {name type : List Char} (hname : ∀ c ∈ name, isWord c = true)
    (hc : keyword "constraint" name = some []) {b b' : Char} (hb : isBlank b = true) (hne : type ≠ [])
    (htype : ∀ c ∈ type, isBlank c = false) (hb' : isBlank b' = true) {rest : List Char} :
    Definition.read (name ++ b :: (type ++ b' :: rest)) = Definition.read (trimStart rest) := by
  have hstep : dropConstraintName? (name ++ b :: ([] ++ (type ++ b' :: rest))) = some (trimStart rest) :=
    dropConstraintName?_named hname hc hb (by simp) hne htype hb'
  rw [List.nil_append] at hstep
  rw [Definition.read, dropConstraintNames_of_some hstep, Definition.read]

/-! ## What a definition declares -/

/-- The definition declares a column with a name: it has the form of one, is no item, and is not called like a table
option. -/
structure Declares (d name : List Char) : Prop where
  form : HasForm (dropConstraintNames d) name
  unlisted : ¬ IsItem (dropConstraintNames d)
  kept : String.ofList (upper name) ∉ tableOptions

/-- The definition gives nothing: it is no item, and it has not the form of a column or is called like a table
option. -/
structure Lost (d : List Char) : Prop where
  unlisted : ¬ IsItem (dropConstraintNames d)
  formless : ∀ name, HasForm (dropConstraintNames d) name → String.ofList (upper name) ∈ tableOptions

theorem item_or_declares_or_lost (d : List Char) :
    IsItem (dropConstraintNames d) ∨ (∃ name, Declares d name) ∨ Lost d := by
  by_cases hitem : IsItem (dropConstraintNames d)
  · exact .inl hitem
  by_cases hform : ∃ name, HasForm (dropConstraintNames d) name ∧ String.ofList (upper name) ∉ tableOptions
  · obtain ⟨name, hform, hkept⟩ := hform
    exact .inr (.inl ⟨name, hform, hitem, hkept⟩)
  · exact .inr (.inr ⟨hitem, fun name h => by_contra fun hkept => hform ⟨name, h, hkept⟩⟩)

/-- What declares a column is read as one. -/
theorem read_of_declares {d name : List Char} (h : Declares d name) :
    ∃ spelling settings, Definition.read d = .column (columnDefinition name spelling settings) := by
  obtain ⟨spelling, settings, hcolumn⟩ := columnOf_of_form h.form
  rw [if_neg h.kept] at hcolumn
  exact ⟨spelling, settings, by rw [Definition.read, classify_of_not_item h.unlisted, hcolumn]⟩

/-- An item is not read as a column. -/
theorem column?_classify_of_item {s : List Char} (h : IsItem s) : (classify s).column? = none := by
  unfold classify
  split
  · rfl
  next hprimary =>
  split
  · rfl
  next hforeign =>
  split
  · rfl
  next hunique =>
  split
  · rfl
  next hcheck =>
  split
  · rfl
  next hindex =>
  simp [IsItem, hprimary, hforeign, hunique, hcheck, hindex] at h

/-- What is lost is not read as a column. -/
theorem column?_read_of_lost {d : List Char} (h : Lost d) : (Definition.read d).column? = none := by
  rw [Definition.read, classify_of_not_item h.unlisted]
  by_cases hform : ∃ name, HasForm (dropConstraintNames d) name
  · obtain ⟨name, hform⟩ := hform
    obtain ⟨spelling, settings, hcolumn⟩ := columnOf_of_form hform
    rw [hcolumn, if_pos (h.formless name hform)]
    rfl
  · rw [columnOf_of_not_form fun name h => hform ⟨name, h⟩]
    rfl

/-- What is read as a column declares it. -/
theorem declares_of_read {d : List Char} {c : ColumnDefinition} (h : Definition.read d = .column c) :
    ∃ name spelling settings, Declares d name ∧ c = columnDefinition name spelling settings := by
  have hsome : (Definition.read d).column? ≠ none := by simp [h, Definition.column?]
  rcases item_or_declares_or_lost d with hitem | ⟨name, hdeclares⟩ | hlost
  · exact absurd (column?_classify_of_item hitem) hsome
  · obtain ⟨spelling, settings, hread⟩ := read_of_declares hdeclares
    exact ⟨name, spelling, settings, hdeclares, Definition.column.inj (h.symm.trans hread)⟩
  · exact absurd (column?_read_of_lost hlost) hsome

/-- The text is a name with a type after it, and maybe settings. The name is between quotes, or it is a word. A word
that announces an item stands before a known type, and the one that announces the name of a constraint is none. -/
inductive NameAndType (name : List Char) : List Char → Prop where
  | quoted {q b : Char} {rest : List Char} (hne : name ≠ []) (hq : isQuote q = true) (hmem : q ∉ name)
    (hb : isBlank b = true) (ht : StartsType (trimStart rest)) : NameAndType name (q :: (name ++ [q]) ++ b :: rest)
  | word {b : Char} {rest : List Char} (hne : name ≠ []) (hname : ∀ c ∈ name, isWord c = true)
    (hc : keyword "constraint" name ≠ some []) (hb : isBlank b = true) (ht : TypeAfter name (trimStart rest)) :
    NameAndType name (name ++ b :: rest)

namespace NameAndType

variable {name s : List Char} (h : NameAndType name s)

include h

theorem dropConstraintNames_eq : dropConstraintNames s = s := by
  cases h with
  | quoted _ hq => exact dropConstraintNames_quote hq _
  | word _ hname hc hb _ => exact dropConstraintNames_declared hname hb hc

theorem not_item : ¬ IsItem s := by
  cases h with
  | quoted _ hq => exact not_item_quote hq _
  | word _ hname _ hb ht => exact not_item_declared hname hb (startsWord_of_startsType ht.starts) ht.led

theorem hasForm : HasForm s name := by
  cases h with
  | quoted hne hq hmem hb ht => exact ⟨_, _, _, .quoted hq hne hmem, rfl, hb, ht⟩
  | word hne hname _ hb ht => exact ⟨_, _, _, spells_declared hname hne, rfl, hb, ht.starts⟩

/-- A name with a type declares a column of that name, exactly if it names no table option. -/
theorem declares_iff : Declares s name ↔ String.ofList (upper name) ∉ tableOptions :=
  ⟨Declares.kept, fun hkept => ⟨by rw [h.dropConstraintNames_eq]; exact h.hasForm,
    by rw [h.dropConstraintNames_eq]; exact h.not_item, hkept⟩⟩

/-- If it does name one, it is lost. -/
theorem lost_iff : Lost s ↔ String.ofList (upper name) ∈ tableOptions := by
  constructor
  · intro hlost
    exact hlost.formless name (by rw [h.dropConstraintNames_eq]; exact h.hasForm)
  · intro hoption
    refine ⟨by rw [h.dropConstraintNames_eq]; exact h.not_item, fun name' hform => ?_⟩
    rw [h.dropConstraintNames_eq] at hform
    rw [h.hasForm.unique hform]
    exact hoption

end NameAndType

end Erd.Sql
