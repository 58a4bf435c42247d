import Erd.Proofs.Sql.Spelling

/-!
# Keys of one column

A key of one column is declared among the settings of the column or as an item of its own, which may have a name, and
more than one. The two are read on different ways: settings are searched for keywords, and an item must start with
them. Both come to the same, but for one thing. The search for the word for unique also goes through the names in a
reference, so a column that refers to a column called like that word is taken for unique.

**Results.**
* `read_item`: an item is read as the key that it spells.
* `Settings.flags`: what settings are read as, clause by clause.
* `read_column`, `read_lost`: what a column with settings is read as.
* `outline_given_insert`: a clause more among the settings sets the flags of its key.
-/
namespace Erd.Sql

open Text

/-- A key of one column. -/
inductive Key where
  | primary
  | unique
  | foreign (table column : String)
  deriving DecidableEq, Repr

/-- A clause of the settings of a column. -/
inductive Clause where
  | notNull
  | key (k : Key)
  deriving DecidableEq, Repr

/-! ## Items -/

/-- The definition that a key of the column `x` is as an item. -/
def Key.definition (x : String) : Key → Definition
  | .primary => .primaryKey [x]
  | .unique => .unique [x]
  | .foreign t c => .foreignKey ⟨x, t, c⟩

/-- A key of the column `x` as an item, with any number of names in front. -/
inductive Key.Item (x : String) : Key → List Char → Prop where
  | primary {u v : List Char} (hu : Words ["primary", "key"] u) (hv : InParens x v) : Item x .primary (u ++ v)
  | unique {u v : List Char} (hu : Words ["unique"] u) (hv : InParens x v) : Item x .unique (u ++ v)
  | foreign {t c : String} {u v g w : List Char} (ht : Plain t) (hc : Plain c) (hu : Words ["foreign", "key"] u)
    (hv : InParens x v) (hg : Blanks g) (hw : Refers t c w) : Item x (.foreign t c) (u ++ (v ++ (g ++ w)))
  | named {k : Key} {n : String} {w g h s : List Char} (hw : IsKeyword "constraint" w) (hg : Gap g) (hn : Plain n)
    (hh : Gap h) (hs : Item x k s) : Item x k (w ++ (g ++ (n.toList ++ (h ++ s))))

section Item

variable {x : String} {k : Key} {s : List Char}

theorem Key.Item.startsWord (h : k.Item x s) : StartsWord s := by
  cases h with
  | primary hu _ => exact (hu.startsWord (by decide)).append _
  | unique hu _ => exact (hu.startsWord (by decide)).append _
  | foreign _ _ hu _ _ _ => exact (hu.startsWord (by decide)).append _
  | named hw _ _ _ _ => exact (Words.startsWord (.one hw) (by decide)).append _

theorem Key.Item.ends (h : k.Item x s) : Ends s := by
  induction h with
  | primary _ hv => exact hv.ends.append _
  | unique _ hv => exact hv.ends.append _
  | foreign _ _ _ _ _ hw => exact ((hw.ends.append _).append _).append _
  | named _ _ _ _ _ ih => exact (((ih.append _).append _).append _).append _

theorem Plain.flat {n : String} (hn : Plain n) : Flat n.toList :=
  flat_of_neutral fun c hc => isNeutral_of_isWord (hn.2 c hc)

theorem Key.Item.flat (hx : Plain x) (h : k.Item x s) : Flat s := by
  induction h with
  | primary hu hv => exact (hu.flat (by decide)).append (hv.flat hx)
  | unique hu hv => exact (hu.flat (by decide)).append (hv.flat hx)
  | foreign ht hc hu hv hg hw =>
    exact (hu.flat (by decide)).append ((hv.flat hx).append (hg.flat.append (hw.flat ht hc)))
  | named hw hg hn hh _ ih =>
    exact (Words.flat (.one hw) (by decide)).append (hg.2.flat.append (hn.flat.append (hh.2.flat.append ih)))

/-- An item can stand in the body of a table. -/
theorem Key.Item.isBodyLine (hx : Plain x) (h : k.Item x s) : IsBodyLine s where
  flat := h.flat hx
  tight := tight_of_starts_ends h.startsWord h.ends
  ne_nil := by
    obtain ⟨c, u, rfl, -⟩ := h.startsWord
    simp

/-- What starts with another keyword than the one for names has no name. -/
theorem read_words {l : String} {ks : List String} {u v : List Char} (hu : Words (l :: ks) u) (hl : IsLetters l)
    (hne : "constraint" ≠ l) (hv : Stops v) : Definition.read (u ++ v) = classify (u ++ v) := by
  have hnone : dropConstraintName? (u ++ v) = none := by
    rw [dropConstraintName?, hu.keyword_none hl (by decide) hne hv]
  rw [Definition.read, dropConstraintNames_eq_self hnone]

theorem phrase_none {k l : String} {s : List Char} (h : (keyword k s).bind skipBlanks? = none) :
    phrase [k, l] s = none := by
  show ((keyword k s).bind skipBlanks?).bind (phrase [l]) = none
  rw [h]
  rfl

/-- Between the word for unique and a parenthesis there is no word for an index. -/
theorem InParens.indexWord?_none {v : List Char} (hv : InParens x v) (t : List Char) :
    (skipBlanks? (v ++ t)).bind indexWord? = none := by
  cases hv with
  | @mk o a b ho _ _ =>
  rw [List.append_assoc, List.cons_append]
  by_cases hgap : o = []
  · rw [hgap]
    rfl
  · have hindex (u : List Char) : indexWord? ('(' :: u) = none := by
      rw [indexWord?, keyword_sign (by decide) (by decide), keyword_sign (by decide) (by decide)]
      rfl
    rw [Gap.skip ⟨hgap, ho⟩ (by intro c hc; cases hc; rfl), Option.bind_some, hindex]

/-- An item is read as the key that it spells, whatever names stand in front. -/
theorem read_item (hx : Plain x) (h : k.Item x s) : Definition.read s = k.definition x := by
  induction h with
  | @primary u v hu hv =>
    have hstops : Stops v := by simpa using hv.stops []
    obtain ⟨inside, hin, -, hnames⟩ := hv.parenthesized hx []
    rw [List.append_nil] at hin
    rw [read_words hu (by decide) (by decide) hstops, classify, primaryKey?, hu.phrase (by decide) hstops,
      Option.bind_some, hin, Option.map_some]
    simp only [hnames]
    rfl
  | @unique u v hu hv =>
    have hstops : Stops v := by simpa using hv.stops []
    obtain ⟨inside, hin, -, hnames⟩ := hv.parenthesized hx []
    have hindex := hv.indexWord?_none []
    rw [List.append_nil] at hin hindex
    have hprimary : primaryKey? (u ++ v) = none := by
      rw [primaryKey?, phrase_none (hu.keyword_none (by decide) (by decide) (by decide) hstops)]
      rfl
    have hforeign : foreignKey? (u ++ v) = none := by
      rw [foreignKey?, phrase_none (hu.keyword_none (by decide) (by decide) (by decide) hstops)]
      rfl
    have hkeyword : keyword "unique" (u ++ v) = some v := hu.phrase (by decide) hstops
    have hunique : unique? (u ++ v) = some [x] := by
      rw [unique?, hkeyword]
      simp only [hindex, hin, Option.map_some, hnames]
    rw [read_words hu (by decide) (by decide) hstops, classify, hprimary, hforeign, hunique]
    rfl
  | @foreign t c u v g w ht hc hu hv hg hw =>
    have hstops : Stops (v ++ (g ++ w)) := hv.stops _
    obtain ⟨inside, hin, hname, -⟩ := hv.parenthesized hx (g ++ w)
    have hprimary : primaryKey? (u ++ (v ++ (g ++ w))) = none := by
      rw [primaryKey?, phrase_none (hu.keyword_none (by decide) (by decide) (by decide) hstops)]
      rfl
    have htarget : reference? (w ++ []) = some ((t, c), []) := hw.read ht hc []
    rw [List.append_nil, reference?] at htarget
    have hforeign : foreignKey? (u ++ (v ++ (g ++ w))) = some ⟨x, t, c⟩ := by
      rw [foreignKey?, hu.phrase (by decide) hstops, Option.bind_some, hin]
      simp only [trimStart_append hg hw.startsWord.not_blank, htarget, Option.map_some, hname]
    rw [read_words hu (by decide) (by decide) hstops, classify, hprimary, hforeign]
    rfl
  | @named k n w g h s hw hg hn hh hs ih =>
    obtain ⟨b, g, rfl⟩ := List.exists_cons_of_ne_nil hg.1
    obtain ⟨b', h, rfl⟩ := List.exists_cons_of_ne_nil hh.1
    obtain ⟨hb, hg⟩ := List.forall_mem_cons.mp hg.2
    obtain ⟨hb', hh⟩ := List.forall_mem_cons.mp hh.2
    have hstep : dropConstraintName? (w ++ b :: (g ++ (n.toList ++ b' :: (h ++ s)))) = some (trimStart (h ++ s)) :=
      dropConstraintName?_named (hw.isWord (by decide)) hw hb hg hn.1 (fun c hc => isBlank_of_isWord (hn.2 c hc)) hb'
    rw [List.cons_append, List.cons_append, Definition.read, dropConstraintNames_of_some hstep,
      trimStart_append hh hs.startsWord.not_blank, ← ih, Definition.read]

end Item

/-! ## Settings -/

/-- A clause as it is spelled. -/
inductive Clause.Spells : Clause → List Char → Prop where
  | notNull {u : List Char} (hu : Words ["not", "null"] u) : Spells .notNull u
  | primary {u : List Char} (hu : Words ["primary", "key"] u) : Spells (.key .primary) u
  | unique {u : List Char} (hu : Words ["unique"] u) : Spells (.key .unique) u
  | foreign {t c : String} {u : List Char} (ht : Plain t) (hc : Plain c) (hu : Refers t c u) :
    Spells (.key (.foreign t c)) u

/-- Settings of a column: clauses with blanks in front of each. -/
inductive Settings : List Clause → List Char → Prop where
  | nil : Settings [] []
  | cons {k : Clause} {ks : List Clause} {g u s : List Char} (hg : Gap g) (hu : k.Spells u) (hs : Settings ks s) :
    Settings (k :: ks) (g ++ (u ++ s))

namespace Clause

/-- The keywords of a clause without names. -/
def words : Clause → List String
  | notNull => ["not", "null"]
  | key .primary => ["primary", "key"]
  | key .unique => ["unique"]
  | key (.foreign _ _) => []

/-- A name in the clause is the word for unique. -/
def namesUnique : Clause → Bool
  | key (.foreign t c) => decide (IsKeyword "unique" t.toList) || decide (IsKeyword "unique" c.toList)
  | _ => false

/-- The word for unique is found in the clause: it is that clause, or names something so. -/
def saysUnique (k : Clause) : Bool := decide (k = key .unique) || k.namesUnique

/-- The table and the column that a reference leads to. -/
def target? : Clause → Option (String × String)
  | key (.foreign t c) => some (t, c)
  | _ => none

variable {k : Clause} {u : List Char} (h : k.Spells u)

include h

theorem Spells.startsWord : StartsWord u := by
  cases h with
  | notNull hu => exact hu.startsWord (by decide)
  | primary hu => exact hu.startsWord (by decide)
  | unique hu => exact hu.startsWord (by decide)
  | foreign _ _ hu => exact hu.startsWord

theorem Spells.ends : Ends u := by
  cases h with
  | notNull hu => exact hu.ends (by decide)
  | primary hu => exact hu.ends (by decide)
  | unique hu => exact hu.ends (by decide)
  | foreign _ _ hu => exact hu.ends

theorem Spells.flat : Flat u := by
  cases h with
  | notNull hu => exact hu.flat (by decide)
  | primary hu => exact hu.flat (by decide)
  | unique hu => exact hu.flat (by decide)
  | foreign ht hc hu => exact hu.flat ht hc

variable {s : List Char} (hs : Stops s)

include hs

theorem Spells.hasPair {a b : String} (ha : IsLetters a) (hb : IsLetters b)
    (hne : a ∉ ["null", "key", "unique", "references"]) :
    hasPhrase [a, b] (u ++ s) = (decide (k.words = [a, b]) || hasPhrase [a, b] s) := by
  simp only [List.mem_cons, List.not_mem_nil, or_false, not_or] at hne
  obtain ⟨hnull, hkey, hunique, hreferences⟩ := hne
  cases h with
  | notNull hu =>
    rw [hu.hasPhrase_two (by decide) (by decide) ha hb hnull hs]
    simp [words, eq_comm]
  | primary hu =>
    rw [hu.hasPhrase_two (by decide) (by decide) ha hb hkey hs]
    simp [words, eq_comm]
  | unique hu =>
    cases hu with
    | cons _ _ hu => cases hu
    | one hw =>
      rw [hasPhrase_pair_other ha (hw.ne_nil (by decide)) (hw.isWord (by decide)) hs fun h => hunique (h.unique hw)]
      simp [words]
  | foreign ht hc hu =>
    rw [hu.hasPhrase_two ht hc s ha hb hreferences]
    simp [words]

theorem Spells.hasUnique : hasPhrase ["unique"] (u ++ s) = (k.saysUnique || hasPhrase ["unique"] s) := by
  cases h with
  | notNull hu => exact hu.hasPhrase_one (by decide) (by decide) hs
  | primary hu => exact hu.hasPhrase_one (by decide) (by decide) hs
  | unique hu => exact hu.hasPhrase_one (by decide) (by decide) hs
  | foreign ht hc hu => exact hu.hasPhrase_one ht hc s (by decide) (by decide)

theorem Spells.target :
    (search reference? (u ++ s)).map Prod.fst = k.target?.or ((search reference? s).map Prod.fst) := by
  cases h with
  | notNull hu => exact congrArg _ (hu.search_reference? (by decide) hs)
  | primary hu => exact congrArg _ (hu.search_reference? (by decide) hs)
  | unique hu => exact congrArg _ (hu.search_reference? (by decide) hs)
  | foreign ht hc hu =>
    have hread := hu.read ht hc s
    obtain ⟨c, v, hv, hword⟩ := hu.startsWord.append s
    rw [hv] at hread ⊢
    simp [search, firstAtWord, hread, target?]

end Clause

theorem Settings.stops {ks : List Clause} {s : List Char} (h : Settings ks s) : Stops s := by
  cases h with
  | nil => exact stops_nil
  | cons hg _ _ => exact hg.stops _

theorem Settings.hasPair {ks : List Clause} {s : List Char} (h : Settings ks s) {a b : String} (ha : IsLetters a)
    (hb : IsLetters b) (hne : a ∉ ["null", "key", "unique", "references"]) :
    hasPhrase [a, b] s = ks.any fun k => k.words = [a, b] := by
  induction h with
  | nil => rfl
  | cons hg hu hs ih => rw [hasPhrase_signs ha hg.2.isWord, hu.hasPair hs.stops ha hb hne, ih, List.any_cons]

/-- What settings are read as, clause by clause. -/
theorem Settings.flags {ks : List Clause} {s : List Char} (h : Settings ks s) :
    hasPhrase ["primary", "key"] s = ks.contains (.key .primary) ∧
      hasPhrase ["not", "null"] s = ks.contains .notNull ∧ hasPhrase ["unique"] s = ks.any Clause.saysUnique ∧
      inlineTarget? s = ks.findSome? Clause.target? := by
  have hprimary (k : Clause) : decide (k.words = ["primary", "key"]) = (.key .primary == k) := by
    rcases k with _ | _ | _ | _ <;> simp [Clause.words]
  have hnull (k : Clause) : decide (k.words = ["not", "null"]) = (.notNull == k) := by
    rcases k with _ | _ | _ | _ <;> simp [Clause.words]
  refine ⟨?_, ?_, ?_, ?_⟩
  · rw [h.hasPair (by decide) (by decide) (by decide), List.contains_eq_any_beq]
    simp only [hprimary]
  · rw [h.hasPair (by decide) (by decide) (by decide), List.contains_eq_any_beq]
    simp only [hnull]
  · induction h with
    | nil => rfl
    | cons hg hu hs ih => rw [hasPhrase_signs (by decide) hg.2.isWord, hu.hasUnique hs.stops, ih, List.any_cons]
  · rw [inlineTarget?_eq]
    induction h with
    | nil => rfl
    | @cons k ks g u s hg hu hs ih =>
      rw [search_signs atWords_reference? hg.2.isWord, hu.target hs.stops, ih, List.findSome?_cons]
      cases k.target? <;> rfl

/-- After the type come settings that start with a blank, and then a word. -/
theorem Settings.afterType {ks : List Clause} {s : List Char} (h : Settings ks s) :
    (∀ c ∈ s.head?, isBlank c = true) ∧ (trimStart s).head? ≠ some '(' := by
  cases h with
  | nil => exact ⟨by simp, by simp [trimStart]⟩
  | cons hg hu _ =>
    obtain ⟨b, g, rfl⟩ := List.exists_cons_of_ne_nil hg.1
    refine ⟨?_, ?_⟩
    · intro c hc
      cases hc
      exact hg.2 _ List.mem_cons_self
    · rw [trimStart_append hg.2 (hu.startsWord.append _).not_blank]
      obtain ⟨c, v, hv, hword⟩ := hu.startsWord.append _
      rw [hv, List.head?_cons]
      exact fun h => ne_of_isWord hword (by decide) (Option.some.inj h)

theorem Settings.flat {ks : List Clause} {s : List Char} (h : Settings ks s) : Flat s := by
  induction h with
  | nil => exact .nil
  | cons hg hu _ ih => exact hg.2.flat.append (hu.flat.append ih)

theorem Settings.ends {ks : List Clause} {s v : List Char} (h : Settings ks s) (hv : Ends v) : Ends (v ++ s) := by
  induction h generalizing v with
  | nil => simpa using hv
  | @cons k ks g u s _ hu _ ih =>
    rw [← List.append_assoc, ← List.append_assoc]
    exact ih (hu.ends.append _)

/-! ## Columns -/

/-- A type, with or without a size. -/
inductive IsType : List Char → Prop where
  | word {w : List Char} (hw : ∀ c ∈ w, isWord c = true) (ht : isTypeWord w = true) : IsType w
  | sized {w g inside : List Char} (hw : ∀ c ∈ w, isWord c = true) (ht : isTypeWord w = true) (hg : Blanks g)
    (hi : ∀ c ∈ inside, isNeutral c = true ∨ c = ',') : IsType (w ++ (g ++ '(' :: (inside ++ [')'])))

/-- A column with a type and settings. -/
inductive IsColumn (x : String) (type : List Char) (ks : List Clause) : List Char → Prop where
  | mk {g s : List Char} (hg : Gap g) (hs : Settings ks s) : IsColumn x type ks (x.toList ++ (g ++ (type ++ s)))

namespace IsType

variable {type : List Char} (h : IsType type)

theorem ne_nil_of_isTypeWord {w : List Char} (hw : isTypeWord w = true) : w ≠ [] := by
  rintro rfl
  exact absurd hw (by decide)

include h

theorem startsWord : StartsWord type := by
  cases h with
  | word hw ht => exact startsWord_of_word (ne_nil_of_isTypeWord ht) hw
  | sized hw ht _ _ => exact (startsWord_of_word (ne_nil_of_isTypeWord ht) hw).append _

theorem ends : Ends type := by
  cases h with
  | word hw ht => exact ends_of_word (ne_nil_of_isTypeWord ht) hw
  | @sized w g inside _ _ _ _ => exact ⟨w ++ (g ++ '(' :: inside), ')', by simp, rfl⟩

theorem flat : Flat type := by
  have hword {w : List Char} (hw : ∀ c ∈ w, isWord c = true) : Flat w :=
    flat_of_neutral fun c hc => isNeutral_of_isWord (hw c hc)
  cases h with
  | word hw _ => exact hword hw
  | sized hw _ hg hi => exact (hword hw).append (hg.flat.append (.group hi .nil))

variable {s : List Char} {ks : List Clause} (hs : Settings ks s)

include hs

/-- The type is a known one, whatever settings come after it. -/
theorem typeLed : TypeLed (type ++ s) := by
  cases h with
  | word hw ht =>
    refine ⟨by rwa [leadingWord_append hw hs.stops], ?_⟩
    rw [afterWord_append hw hs.stops]
    exact fun c hc => .inl (hs.afterType.1 c hc)
  | @sized w g inside hw ht hg _ =>
    have hstops : Stops (g ++ '(' :: (inside ++ [')']) ++ s) := by
      rw [List.append_assoc]
      exact head?_gap_sign hg rfl _
    rw [List.append_assoc]
    refine ⟨by rwa [leadingWord_append hw hstops], ?_⟩
    rw [afterWord_append hw hstops]
    intro c hc
    cases g with
    | nil =>
      obtain rfl := Option.some.inj hc
      exact .inr rfl
    | cons b g =>
      obtain rfl := Option.some.inj hc
      exact .inl (hg _ List.mem_cons_self)

/-- It is told apart from them if it starts as a type may. -/
theorem spelling?_settings (hstart : StartsType type) : spelling? (type ++ s) = some (type, s) := by
  cases h with
  | word hw ht => exact spelling?_word hstart hw hs.stops hs.afterType.2
  | @sized w g inside hw ht hg hi =>
    have hclose : ')' ∉ inside := fun hm => by rcases hi _ hm with h | h <;> revert h <;> decide
    have hword : StartsType w := by
      obtain ⟨a, v, hv⟩ := List.exists_cons_of_ne_nil (ne_nil_of_isTypeWord ht)
      obtain ⟨b, rest, hrest, hb⟩ := hstart
      rw [hv] at hrest
      cases hrest
      exact ⟨a, v, hv, hb⟩
    simpa using spelling?_sized (s := s) hword hw hg hclose

omit hs in
/-- A type that does not is none. -/
theorem spelling?_none (hstart : ¬ StartsType type) (s : List Char) : spelling? (type ++ s) = none := by
  have hnot : ¬ (spelling? (type ++ s)).isSome := by
    rw [spelling?_isSome_iff]
    rintro ⟨a, rest, hrest, ha⟩
    obtain ⟨c, v, hv, -⟩ := h.startsWord
    rw [hv] at hrest
    cases hrest
    exact hstart ⟨_, v, hv, ha⟩
  simpa using hnot

end IsType

section Column

variable {x : String} {type u : List Char} {ks : List Clause} (hx : Plain x) (ht : IsType type)
  (h : IsColumn x type ks u)

include hx ht h

theorem IsColumn.isBodyLine : IsBodyLine u := by
  obtain ⟨hg, hs⟩ := h
  refine ⟨hx.flat.append (hg.2.flat.append (ht.flat.append hs.flat)), tight_of_starts_ends ?_ ?_, by simp [hx.1]⟩
  · exact (startsWord_of_word hx.1 hx.2).append _
  · exact ((hs.ends ht.ends).append _).append _

/-- A column is read with its settings. -/
theorem read_column (hd : Declarable x) (hstart : StartsType type) :
    ∃ s, Settings ks s ∧ Definition.read u = .column (columnDefinition x.toList type s) := by
  cases h with
  | @mk g s hg hs =>
  obtain ⟨b, g, rfl⟩ := List.exists_cons_of_ne_nil hg.1
  obtain ⟨hb, hg⟩ := List.forall_mem_cons.mp hg.2
  have htrim : trimStart (g ++ (type ++ s)) = type ++ s := trimStart_append hg (ht.startsWord.append s).not_blank
  have hafter : TypeAfter x.toList (trimStart (g ++ (type ++ s))) := by
    rw [htrim]
    refine ⟨?_, fun _ _ _ => ht.typeLed hs⟩
    obtain ⟨c, v, rfl, hc⟩ := hstart
    exact ⟨c, v ++ s, rfl, hc⟩
  exact ⟨s, hs, read_declared hx.2 hb hafter hx.1 hd.1 hd.2 (htrim.symm ▸ ht.spelling?_settings hs hstart)⟩

/-- Where its type does not start as a type may, it is not understood. -/
theorem read_lost (hd : Declarable x) (hstart : ¬ StartsType type) : Definition.read u = .unreadable := by
  cases h with
  | @mk g s hg hs =>
  obtain ⟨b, g, rfl⟩ := List.exists_cons_of_ne_nil hg.1
  obtain ⟨hb, hg⟩ := List.forall_mem_cons.mp hg.2
  have htrim : trimStart (g ++ (type ++ s)) = type ++ s := trimStart_append hg (ht.startsWord.append s).not_blank
  have hitem : ¬ IsItem (x.toList ++ b :: (g ++ (type ++ s))) :=
    not_item_declared hx.2 hb (htrim.symm ▸ ht.startsWord.append s) fun _ _ _ => htrim.symm ▸ ht.typeLed hs
  have hskip : (skipBlanks? (b :: (g ++ (type ++ s)))).bind spelling? = none := by
    rw [skipBlanks?, if_pos hb, htrim, Option.bind_some, ht.spelling?_none hstart]
  rw [List.cons_append, Definition.read, dropConstraintNames_declared hx.2 hb hd.1, classify_of_not_item hitem,
    columnOf, columnName?_of_spells (spells_declared hx.2 hx.1) hb]
  simp only [hskip]

end Column

/-- The column that settings with these clauses give. -/
def given (x : String) (type : List Char) (ks : List Clause) : ColumnDefinition where
  name := x
  spelling := String.ofList type
  type := columnType type
  isPrimaryKey := ks.contains (.key .primary)
  isUnique := ks.contains (.key .primary) || ks.any Clause.saysUnique
  isNotNull := ks.contains (.key .primary) || ks.contains .notNull
  countsUp := false
  reference := (ks.findSome? Clause.target?).map fun p => ⟨x, p.1, p.2⟩

/-- They are read so, but that a name in a reference may be a word for counting up. -/
theorem columnDefinition_eq {x : String} {type s : List Char} {ks : List Clause} (h : Settings ks s) :
    ∃ up, columnDefinition x.toList type s = { given x type ks with countsUp := up } := by
  obtain ⟨hp, hn, hu, ht⟩ := h.flags
  refine ⟨hasPhrase ["auto_increment"] s || hasPhrase ["autoincrement"] s, ?_⟩
  simp only [columnDefinition, given, hp, hn, hu, ht, String.ofList_toList]

/-- What a key makes of its column. -/
def Key.mark : Key → Outline.Column → Outline.Column
  | .primary => markPrimaryKey
  | .unique => markUnique
  | .foreign _ _ => markForeignKey

/-- A clause more among the settings sets the flags of its key, unless it names something like the word for
unique. -/
theorem outline_given_insert (x : String) (type : List Char) (ks ls : List Clause) {k : Key}
    (hk : (Clause.key k).namesUnique = false) :
    (given x type (ks ++ .key k :: ls)).outline = k.mark (given x type (ks ++ ls)).outline := by
  have hfound (o : Option (String × String)) :
      (o.map fun p => (⟨x, p.1, p.2⟩ : Reference)).isSome = o.isSome := Option.isSome_map
  simp only [given, ColumnDefinition.outline, hfound]
  cases k with
  | primary => simp [Key.mark, markPrimaryKey, List.findSome?_cons, Clause.target?]
  | unique => simp [Key.mark, markUnique, Clause.saysUnique, List.findSome?_cons, Clause.target?]
  | foreign t c => simp [Key.mark, markForeignKey, Clause.saysUnique, hk, List.findSome?_cons, Clause.target?]

end Erd.Sql
