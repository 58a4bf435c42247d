import Erd.Proofs.Sql.DeclarationOrder
import Erd.Proofs.Sql.Quote

/-!
# Literals of default values

A literal is no part of what is declared: two scripts that only differ in the literals of default values are read
alike. The commas of a body are looked for with regard to quotes, and so a literal may hold commas. Comments, semicolons
and the end of a body are looked for without, and keywords are searched for in all of the settings. So this holds as
long as the literals start no comment, hold no semicolon, leave the body where it ends, and hold the same of the words
that set flags and nothing that refers to a table.

**Results.**
* `Slot.Sound.read`: the reading of a column with a default value, whatever the literal.
* `definitions_relit`: bodies that differ in literals define the same.
* `literals_opaque`: scripts that differ in literals are read alike.
* `not_literals_opaque_mood`: those in which a literal closes a parenthesis, ends a statement, starts a comment or
  names a constraint are not.
-/
namespace Erd.Sql

open Text

/-! ## Columns with a default value -/

/-- A column with a place for a literal: the blanks in front of it, its name as it is spelled and the blanks behind it,
its type up to the first blank, what stands between that and the literal, and what stands behind the literal. -/
structure Slot where
  indent : List Char
  name : List Char
  gap : List Char
  type : List Char
  more : List Char
  back : List Char

namespace Slot

/-- The text up to the literal. -/
def front (p : Slot) : List Char := p.name ++ (p.gap ++ (p.type ++ p.more))

/-- The text with a literal. -/
def text (p : Slot) (literal : List Char) : List Char :=
  p.indent ++ (p.front ++ '\'' :: (literal ++ '\'' :: p.back))

/-- The column has a name and a type, the last word before the literal is the one for a default value, and what stands
around the literal is settled. If the name is the word that announces the name of a constraint, no such word and no
quote is left behind the type. -/
structure Sound (p : Slot) : Prop where
  indent : Blanks p.indent
  name : ∃ n, Spells n p.name
  gap : Gap p.gap
  type : p.type ≠ [] ∧ ∀ c ∈ p.type, isBlank c = false
  more : ∃ b w d g, isBlank b = true ∧ p.more = b :: (w ++ (d ++ g)) ∧ IsKeyword "default" d ∧ Gap g
  unannounced : IsKeyword "constraint" p.name →
    hasPhrase ["constraint"] p.more = false ∧ ∀ c ∈ p.more, isQuote c = false
  enclosed : Enclosed p.front
  front : Settled p.front
  back : Settled p.back

end Slot

/-- A keyword that is not found in a text does not stand before blanks where the text starts. -/
theorem keyword_bind_skipBlanks?_quote {k : String} (hk : IsLetters k) {u : List Char} (h : phraseAt [k] u = none)
    (x : List Char) : (keyword k (u ++ '\'' :: x)).bind skipBlanks? = none := by
  rw [keyword_append_quote x hk]
  cases hr : keyword k u with
  | none => rfl
  | some r =>
    rw [Option.map_some, Option.bind_some, skipBlanks?_append_sign rfl]
    cases hs : skipBlanks? r with
    | none => rfl
    | some t =>
      obtain ⟨b, left, rfl, hb, -⟩ := skipBlanks?_eq_some_iff.mp hs
      have hend : atWordEnd (b :: left) = true := by simp [atWordEnd, isWord_of_isBlank hb]
      rw [phraseAt, phrase, hr, Option.filter_some, if_pos hend] at h
      cases h

theorem phraseAt_eq_none {k : String} (hk : IsLetters k) {u : List Char} (h : hasPhrase [k] u = false) :
    phraseAt [k] u = none := by
  rw [hasPhrase_eq, Option.isSome_eq_false_iff, Option.isNone_iff_eq_none] at h
  cases u with
  | nil =>
    obtain ⟨a, ks, hks⟩ := List.exists_cons_of_ne_nil hk.1
    rw [phraseAt, phrase, keyword, hks]
    rfl
  | cons c u =>
    cases hf : phraseAt [k] (c :: u) with
    | none => rfl
    | some r => simp [search, firstAtWord, hf] at h

/-- Where no word announces the name of a constraint, none is dropped. -/
theorem dropConstraintName?_quote {u : List Char} (h : hasPhrase ["constraint"] u = false) (x : List Char) :
    dropConstraintName? (u ++ '\'' :: x) = none := by
  rw [dropConstraintName?, keyword_bind_skipBlanks?_quote (by decide) (phraseAt_eq_none (by decide) h)]

/-- Behind blanks a text in front of a literal is still one. -/
theorem Fence.trimStart {w d g : List Char} (hc : Closed (w ++ (d ++ g))) (hd : IsKeyword "default" d) (hg : Gap g) :
    Fence (trimStart (w ++ (d ++ g))) := by
  refine ⟨hc.suffix (List.dropWhile_suffix _), ?_⟩
  have hstart : Text.trimStart (d ++ g) = d ++ g :=
    trimStart_eq_self ((startsWord_of_word (hd.ne_nil (by decide)) (hd.isWord (by decide))).append g).not_blank
  rw [Text.trimStart, List.dropWhile_append]
  split
  · exact ⟨[], d, g, hstart, hd, hg⟩
  · exact ⟨_, d, g, rfl, hd, hg⟩

namespace Slot.Sound

variable {p : Slot} (hp : p.Sound)

include hp

theorem fence : Fence p.front := by
  obtain ⟨b, w, d, g, -, hmore, hd, hg⟩ := hp.more
  refine ⟨hp.enclosed.closed, p.name ++ (p.gap ++ (p.type ++ b :: w)), d, g, ?_, hd, hg⟩
  rw [Slot.front, hmore]
  simp

theorem named : Fence.Named p.front := by
  obtain ⟨n, hn⟩ := hp.name
  obtain ⟨b, g, hgap⟩ := List.exists_cons_of_ne_nil hp.gap.1
  have hb : isBlank b = true := hp.gap.2 b (hgap ▸ List.mem_cons_self)
  intro x
  rw [Slot.front, hgap, List.cons_append, columnName?_of_spells hn hb, List.append_assoc, List.cons_append,
    columnName?_of_spells hn hb]
  rfl

/-- A name is not dropped unless it is the word that announces the name of a constraint. -/
theorem dropConstraintNames_front (hc : ¬ IsKeyword "constraint" p.name) (x : List Char) :
    dropConstraintNames (p.front ++ '\'' :: x) = p.front ++ '\'' :: x := by
  obtain ⟨n, hn⟩ := hp.name
  obtain ⟨b, g, hgap⟩ := List.exists_cons_of_ne_nil hp.gap.1
  have hb : isBlank b = true := hp.gap.2 b (hgap ▸ List.mem_cons_self)
  rw [Slot.front, hgap]
  generalize p.name = spelled at hn hc ⊢
  cases hn with
  | quoted hq _ _ => exact dropConstraintNames_quote hq _
  | plain _ hplain =>
    refine dropConstraintNames_eq_self ?_
    rw [List.append_assoc, List.cons_append, List.cons_append, dropConstraintName?, keyword_append_blank (by decide) hb]
    cases hl : keyword "constraint" n with
    | none => rfl
    | some left =>
      obtain ⟨taken, hsplit, -⟩ := dropKeyword_eq_some hl
      cases left with
      | nil => exact absurd hl hc
      | cons c left =>
        have hblank := (hplain c (hsplit ▸ List.mem_append_right taken List.mem_cons_self)).1
        simp [skipBlanks?_of_head hblank]

/-- What the reading of the column depends on is read in front of the literal. -/
theorem read : ∃ u, Fence u ∧ Fence.Named u ∧
    ∀ x, Definition.read (p.front ++ '\'' :: x) = classify (u ++ '\'' :: x) := by
  by_cases hc : IsKeyword "constraint" p.name
  · obtain ⟨hnone, hquote⟩ := hp.unannounced hc
    obtain ⟨b, g, hgap⟩ := List.exists_cons_of_ne_nil hp.gap.1
    obtain ⟨hb, hg⟩ := List.forall_mem_cons.mp (hgap ▸ hp.gap.2 : Blanks (b :: g))
    obtain ⟨b', w, d, h, hb', hmore, hd, hh⟩ := hp.more
    have hsuffix : w ++ (d ++ h) <:+ p.more := hmore ▸ List.suffix_cons b' _
    have hfront : p.more <:+ p.front :=
      (List.suffix_append p.type _).trans ((List.suffix_append p.gap _).trans (List.suffix_append p.name _))
    have hfence := Fence.trimStart (hp.enclosed.closed.suffix (hsuffix.trans hfront)) hd hh
    have hrest : hasPhrase ["constraint"] (trimStart (w ++ (d ++ h))) = false := by
      have hblanks : ∀ c ∈ b' :: (w ++ (d ++ h)).takeWhile isBlank, isWord c = false :=
        List.forall_mem_cons.mpr ⟨isWord_of_isBlank hb', fun c hc => isWord_of_isBlank (List.mem_takeWhile_imp hc)⟩
      rw [← hasPhrase_signs (k := "constraint") (by decide) hblanks, List.cons_append, ← trimStart_eq, ← hmore]
      exact hnone
    refine ⟨_, hfence, fun x => columnName?_append_quote x ?_ fun q hq => ?_, fun x => ?_⟩
    · obtain ⟨v, e, i, hv, -, hi⟩ := hfence.ending
      rw [hv]
      simp [hi.1]
    · exact hquote q (hsuffix.subset ((List.dropWhile_suffix _).subset (List.mem_of_mem_head? hq)))
    · have hdrop : dropConstraintName? (p.name ++ b :: (g ++ (p.type ++ b' :: (w ++ (d ++ h) ++ '\'' :: x)))) =
          some (trimStart (w ++ (d ++ h) ++ '\'' :: x)) :=
        dropConstraintName?_named (hc.isWord (by decide)) hc hb hg hp.type.1 hp.type.2 hb'
      have htext : p.front ++ '\'' :: x = p.name ++ b :: (g ++ (p.type ++ b' :: (w ++ (d ++ h) ++ '\'' :: x))) := by
        rw [Slot.front, hgap, hmore]
        simp
      rw [Definition.read, htext, dropConstraintNames_of_some hdrop, trimStart_append_quote,
        dropConstraintNames_eq_self (dropConstraintName?_quote hrest x)]
  · exact ⟨_, hp.fence, hp.named, fun x => by rw [Definition.read, hp.dropConstraintNames_front hc]⟩

end Slot.Sound

/-! ## Settings with a literal -/

/-- The keywords that set flags of a column. -/
def flagPhrases : List (List String) := [["primary", "key"], ["unique"], ["not", "null"]]

theorem letters_flagPhrases : ∀ ks ∈ flagPhrases, ks ≠ [] ∧ ∀ l ∈ ks, IsLetters l := by decide

/-- Two literals that say the same of a column: the same keywords that set flags stand in both, and neither refers to
a table. -/
structure Alike (a b : List Char) : Prop where
  flags : ∀ ks ∈ flagPhrases, hasPhrase ks b = hasPhrase ks a
  references : hasPhrase ["references"] a = false ∧ hasPhrase ["references"] b = false

instance (a b : List Char) : Decidable (Alike a b) :=
  decidable_of_iff ((∀ ks ∈ flagPhrases, hasPhrase ks b = hasPhrase ks a) ∧
    hasPhrase ["references"] a = false ∧ hasPhrase ["references"] b = false)
    ⟨fun h => ⟨h.1, h.2⟩, fun h => ⟨h.flags, h.references⟩⟩

/-- The definition, leaving aside whether its column counts up. -/
def ColumnDefinition.uncounted (c : ColumnDefinition) : ColumnDefinition := { c with countsUp := false }

/-- The definition, leaving aside whether its column counts up. -/
def Definition.uncounted : Definition → Definition
  | .column c => .column c.uncounted
  | d => d

/-- Keywords are found in a literal as well. -/
theorem hasPhrase_literal {k : String} {ks : List String} (hks : ∀ l ∈ k :: ks, IsLetters l) (s a v : List Char) :
    hasPhrase (k :: ks) (s ++ '\'' :: (a ++ '\'' :: v)) =
      (hasPhrase (k :: ks) s || (hasPhrase (k :: ks) a || hasPhrase (k :: ks) v)) := by
  rw [hasPhrase_append_sign rfl (by decide) hks, hasPhrase_append_sign rfl (by decide) hks]

/-- A literal without the word for a reference is passed over. -/
theorem inlineTarget?_literal {a : List Char} (h : hasPhrase ["references"] a = false) (v : List Char) :
    inlineTarget? (a ++ '\'' :: v) = inlineTarget? v := by
  rw [hasPhrase_eq, Option.isSome_eq_false_iff, Option.isNone_iff_eq_none] at h
  have hnone : search (fun t => reference? (t ++ '\'' :: v)) a = none := search_eq_none
    (fun t ht => reference?_none (keyword_bind_skipBlanks?_quote isLetters_references ht v)) h
  rw [inlineTarget?_eq, inlineTarget?_eq, search_append_sign atWords_reference? (by decide), hnone,
    Option.none_or]

section Literal

variable {a b : List Char} (h : Alike a b)

include h

/-- What settings say with one literal they say with the other. -/
theorem columnDefinition_literal {u settings : List Char} (hu : Fence u) (hs : settings <:+ u)
    (name spelling v : List Char) :
    (columnDefinition name spelling (settings ++ '\'' :: (b ++ '\'' :: v))).uncounted =
      (columnDefinition name spelling (settings ++ '\'' :: (a ++ '\'' :: v))).uncounted := by
  have hflag (ks : List String) (hmem : ks ∈ flagPhrases) : hasPhrase ks (settings ++ '\'' :: (b ++ '\'' :: v)) =
      hasPhrase ks (settings ++ '\'' :: (a ++ '\'' :: v)) := by
    obtain ⟨hne, hks⟩ := letters_flagPhrases ks hmem
    obtain ⟨k, ks, rfl⟩ := List.exists_cons_of_ne_nil hne
    rw [hasPhrase_literal hks, hasPhrase_literal hks, h.flags _ hmem]
  have htarget : inlineTarget? (settings ++ '\'' :: (b ++ '\'' :: v)) =
      inlineTarget? (settings ++ '\'' :: (a ++ '\'' :: v)) := by
    rw [hu.inlineTarget?_quote _ hs, hu.inlineTarget?_quote _ hs, inlineTarget?_literal h.references.1,
      inlineTarget?_literal h.references.2]
  simp only [columnDefinition, ColumnDefinition.uncounted, htarget, hflag ["primary", "key"] (by decide),
    hflag ["unique"] (by decide), hflag ["not", "null"] (by decide)]

theorem Slot.Sound.read_literal {p : Slot} (hp : p.Sound) (v : List Char) :
    (Definition.read (p.front ++ '\'' :: (b ++ '\'' :: v))).uncounted =
      (Definition.read (p.front ++ '\'' :: (a ++ '\'' :: v))).uncounted := by
  obtain ⟨u, hu, hn, hread⟩ := hp.read
  rw [hread, hread]
  rcases hu.classify_quote hn with ⟨e, he⟩ | ⟨name, spelling, settings, hs, he⟩
  · rw [he, he]
  · rw [he, he]
    exact congrArg Definition.column (columnDefinition_literal h hu hs name spelling v)

end Literal

/-! ## Bodies that differ in literals -/

/-- Two texts of a definition that are the same, or differ in the literal of a default value. -/
inductive Relit : List Char → List Char → Prop where
  | same {s : List Char} (hs : Settled s) : Relit s s
  | literal {p : Slot} (hp : p.Sound) {a b : List Char} (ha : '\'' ∉ a) (hb : '\'' ∉ b) (h : Alike a b) :
    Relit (p.text a) (p.text b)

theorem Settled.append {s t : List Char} (hs : Settled s) (ht : Settled t) : Settled (s ++ t) where
  whole := by rw [piecesFrom_append hs.whole, hs.level, ht.whole, prepend]
  level := by rw [List.foldl_append, hs.level, ht.level]

/-- A text between quotes is settled. -/
theorem settled_literal {a : List Char} (ha : '\'' ∉ a) : Settled ('\'' :: (a ++ ['\''])) := by
  have hinside : piecesFrom ⟨0, true⟩ (a ++ ['\'']) = [a ++ ['\'']] ∧
      (a ++ ['\'']).foldl Nesting.after ⟨0, true⟩ = {} := by
    induction a with
    | nil => decide
    | cons c a ih =>
      obtain ⟨hc, ha⟩ := not_or.mp (List.mem_cons.not.mp ha)
      have hafter : (Nesting.mk 0 true).after c = ⟨0, true⟩ := by simp [Nesting.after, Ne.symm hc]
      rw [List.cons_append, piecesFrom_cons (by simp [Nesting.isOpen]), List.foldl_cons, hafter, (ih ha).1, (ih ha).2]
      exact ⟨rfl, rfl⟩
  have hopen : ({} : Nesting).after '\'' = ⟨0, true⟩ := rfl
  refine ⟨?_, ?_⟩
  · rw [piecesFrom_cons (by decide), hopen, hinside.1]
    rfl
  · rw [List.foldl_cons, hopen, hinside.2]

namespace Slot.Sound

variable {p : Slot} (hp : p.Sound)

include hp

theorem settled_text {a : List Char} (ha : '\'' ∉ a) : Settled (p.text a) := by
  have hliteral := (settled_literal ha).append hp.back
  rw [List.cons_append, List.append_assoc, List.singleton_append] at hliteral
  exact hp.indent.flat.settled.append (hp.front.append hliteral)

theorem trim_text (a : List Char) : trim (p.text a) = p.front ++ '\'' :: (a ++ '\'' :: trimEnd p.back) := by
  have hhead : ∀ c ∈ (p.front ++ '\'' :: (a ++ '\'' :: p.back)).head?, isBlank c = false := by
    obtain ⟨n, hn⟩ := hp.name
    rw [Slot.front]
    generalize p.name = spelled at hn ⊢
    cases hn with
    | @quoted q hq _ _ =>
      intro c hc
      cases hc
      rcases isQuote_iff.mp hq with rfl | rfl | rfl <;> rfl
    | plain hne hplain =>
      obtain ⟨c, n, rfl⟩ := List.exists_cons_of_ne_nil hne
      intro d hd
      cases hd
      exact (hplain c List.mem_cons_self).1
  rw [Slot.text, trim, trimStart_append hp.indent hhead, trimEnd_append_cons rfl, ← List.cons_append,
    trimEnd_append_cons rfl]
  rfl

end Slot.Sound

/-- Bodies that differ in literals define the same, leaving aside which columns count up. -/
theorem definitions_relit {xs ys : List (List Char)} (h : List.Forall₂ Relit xs ys) :
    ((definitions (join ',' ys)).map Definition.read).map Definition.uncounted =
      ((definitions (join ',' xs)).map Definition.read).map Definition.uncounted := by
  induction h with
  | nil => rfl
  | cons hxy _ ih =>
    cases hxy with
    | same hs =>
      rw [definitions_join_cons hs, definitions_join_cons hs, List.map_append, List.map_append, List.map_append,
        List.map_append, ih]
    | literal hp ha hb h =>
      rw [definitions_join_cons (hp.settled_text ha), definitions_join_cons (hp.settled_text hb), hp.trim_text,
        hp.trim_text, List.filter_cons_of_pos (by simp), List.filter_cons_of_pos (by simp), List.filter_nil]
      simp only [List.singleton_append, List.map_cons, hp.read_literal h, ih]

section Uncounted

variable (n : String) (ds : List Definition)

/-- Which columns count up is no part of an outline. -/
theorem outline_uncounted :
    (TableDefinition.mk n (ds.map Definition.uncounted)).outline = (TableDefinition.mk n ds).outline := by
  have hcolumn (d : Definition) : d.uncounted.column?.map ColumnDefinition.outline =
      d.column?.map ColumnDefinition.outline := by cases d <;> rfl
  have hprimary (d : Definition) : d.uncounted.primaryKeyColumns = d.primaryKeyColumns := by cases d <;> rfl
  have hunique (d : Definition) : d.uncounted.uniqueColumn? = d.uniqueColumn? := by cases d <;> rfl
  simp only [TableDefinition.outline, TableDefinition.columns, TableDefinition.ownColumns, List.filterMap_map,
    List.flatMap_map, List.map_filterMap, Function.comp_def, hcolumn, hprimary, hunique]

theorem references_uncounted :
    (TableDefinition.mk n (ds.map Definition.uncounted)).references = (TableDefinition.mk n ds).references := by
  have hreference (d : Definition) : d.uncounted.reference? = d.reference? := by cases d <;> rfl
  simp only [TableDefinition.references, List.filterMap_map, Function.comp_def, hreference]

end Uncounted

/-! ## Scripts that differ in literals -/

/-- The statement is one as it stands: its body is its first parenthesis and ends where that is closed, it holds no
semicolon, and it starts no comment. -/
structure Layout.Legible (l : Layout) : Prop where
  stem : '(' ∉ l.stem
  body : Enclosed (join ',' l.items)
  whole : ';' ∉ l.text
  uncommented : Uncommented l.text

section Relit

variable {l : Layout} {ys : List (List Char)} (hl : l.Legible) (hy : (l.withItems ys).Legible)
  (h : List.Forall₂ Relit l.items ys)

include hl hy

theorem outcomes_relit : ∃ line, outcomes l.text = [⟨line, l.name.map fun n => ⟨n, l.definitions⟩⟩] ∧
    outcomes (l.withItems ys).text = [⟨line, l.name.map fun n => ⟨n, (l.withItems ys).definitions⟩⟩] := by
  refine ⟨1 + newlines (l.stem.takeWhile isBlank), ?_, ?_⟩
  · rw [Layout.outcomes_text hl.uncommented hl.whole, Layout.read_text hl.stem hl.body]
  · rw [Layout.outcomes_text hy.uncommented hy.whole, Layout.read_text hy.stem hy.body]
    rfl

theorem faultsOf_relit : faultsOf (l.withItems ys).text = faultsOf l.text := by
  obtain ⟨line, ho, ho'⟩ := outcomes_relit hl hy
  rw [faultsOf, faultsOf, ho, ho']
  cases l.name <;> rfl

include h

theorem outline_relit (ts us : List TableDefinition) :
    outline (ts ++ (tablesOf (l.withItems ys).text ++ us)) = outline (ts ++ (tablesOf l.text ++ us)) := by
  obtain ⟨line, ho, ho'⟩ := outcomes_relit hl hy
  rw [tablesOf, tablesOf, ho, ho']
  cases l.name with
  | error f => rfl
  | ok n =>
    have hdefinitions : (l.withItems ys).definitions.map Definition.uncounted =
        l.definitions.map Definition.uncounted := definitions_relit h
    refine outline_congr ?_ ?_
    · rw [← outline_uncounted, hdefinitions, outline_uncounted]
    · rw [← references_uncounted, hdefinitions, references_uncounted]

end Relit

/-- Scripts that differ in the literals of default values in one of their statements are read alike, if the statement is
one as it stands with either of them. -/
theorem literals_opaque {s : Outline.Sheet} (hs : s.grid.columns ≠ 0) (d : Dialect) (before after : List String)
    {l : Layout} {ys : List (List Char)} (h : List.Forall₂ Relit l.items ys) (hl : l.Legible)
    (hy : (l.withItems ys).Legible) (hu : ∀ u ∈ before ++ after, Uncommented u.toList)
    (hn : newlines (l.withItems ys).text = newlines l.text ∨ faultsOf (";".intercalate after).toList = []) :
    ∃ r, read s d (";".intercalate (before ++ String.ofList l.text :: after)) = .ok r ∧
      read s d (";".intercalate (before ++ String.ofList (l.withItems ys).text :: after)) = .ok r := by
  refine ⟨_, read_eq d _ hs, ?_⟩
  obtain ⟨hbefore, hafter⟩ := List.forall_mem_append.mp hu
  have hb : ∀ u ∈ before.map String.toList, Uncommented u := List.forall_mem_map.mpr hbefore
  have ha : ∀ u ∈ after.map String.toList, Uncommented u := List.forall_mem_map.mpr hafter
  have hall {t : List Char} (ht : Uncommented t) :
      ∀ u ∈ before.map String.toList ++ t :: after.map String.toList, Uncommented u :=
    List.forall_mem_append.mpr ⟨hb, List.forall_mem_cons.mpr ⟨ht, ha⟩⟩
  have hscript (t : List Char) : (";".intercalate (before ++ String.ofList t :: after)).toList =
      join ';' (before.map String.toList ++ t :: after.map String.toList) := by
    rw [toList_intercalate, List.map_append, List.map_cons, String.toList_ofList]
  rw [toList_intercalate] at hn
  rw [read_eq d _ hs, hscript, hscript, tablesOf_join (hall hl.uncommented), tablesOf_join (hall hy.uncommented),
    List.flatMap_append, List.flatMap_append, List.flatMap_cons, List.flatMap_cons, outline_relit hl hy h,
    faultsOf_join_congr hl.uncommented hy.uncommented (faultsOf_relit hl hy) hn hb ha]

/-! ## Examples -/

/-- The mood of a day, with a place for the one that it has if nobody says otherwise. -/
def moodSlot : Slot := ⟨[], "mood".toList, [' '], "TEXT".toList, " DEFAULT ".toList, " NOT NULL".toList⟩

theorem sound_moodSlot : moodSlot.Sound where
  indent := by decide
  name := ⟨_, .plain (by decide) (by decide)⟩
  gap := by decide
  type := by decide
  more := ⟨' ', [], "DEFAULT".toList, [' '], by decide, by decide, by decide, by decide⟩
  unannounced := by decide
  enclosed := by decide
  front := by decide
  back := by decide

/-- The table of days. -/
def daysLayout (mood : String) : Layout :=
  ⟨"CREATE TABLE days ".toList, [moodSlot.text mood.toList, " day INT".toList], []⟩

/-- A table that refers to the one of days. -/
def weeksStatement : String := "CREATE TABLE weeks (start INT REFERENCES days(day))"

theorem literals_opaque_days : ({} : Outline.Sheet).grid.columns ≠ 0 ∧
    List.Forall₂ Relit (daysLayout "").items (daysLayout "so, so (no key)").items ∧ (daysLayout "").Legible ∧
      (daysLayout "so, so (no key)").Legible ∧ Uncommented weeksStatement.toList ∧
        newlines (daysLayout "so, so (no key)").text = newlines (daysLayout "").text ∧
          ∃ r, read {} .mysql (";".intercalate [String.ofList (daysLayout "").text, weeksStatement]) = .ok r ∧
            read {} .mysql (";".intercalate [String.ofList (daysLayout "so, so (no key)").text, weeksStatement]) =
              .ok r := by
  have hs : ({} : Outline.Sheet).grid.columns ≠ 0 := by decide
  have hrelit : List.Forall₂ Relit (daysLayout "").items (daysLayout "so, so (no key)").items :=
    .cons (.literal sound_moodSlot (by decide) (by decide) (by decide +kernel)) (.cons (.same (by decide)) .nil)
  have hempty : (daysLayout "").Legible :=
    ⟨by decide, by decide +kernel, by decide +kernel, ⟨by decide +kernel, by decide +kernel⟩⟩
  have hfull : (daysLayout "so, so (no key)").Legible :=
    ⟨by decide, by decide +kernel, by decide +kernel, ⟨by decide +kernel, by decide +kernel⟩⟩
  have hweeks : Uncommented weeksStatement.toList := ⟨by decide +kernel, by decide +kernel⟩
  have hlines : newlines (daysLayout "so, so (no key)").text = newlines (daysLayout "").text := by decide +kernel
  exact ⟨hs, hrelit, hempty, hfull, hweeks, hlines, literals_opaque hs .mysql [] [weeksStatement] hrelit hempty hfull
    (by simpa using hweeks) (.inl hlines)⟩

/-- Which columns are unique in a script with the table of days. -/
def daysFlags (mood : String) : List (List Bool) :=
  ((outline (tablesOf (daysLayout mood).text)).draw {}).tables.map fun t =>
    t.columns.map fun c => c.constraints.isUnique

/-- A literal changes what is read if it names a constraint, holds a semicolon, starts a comment or closes a
parenthesis. -/
theorem not_literals_opaque_mood : moodSlot.Sound ∧ ∀ mood ∈ ["UNIQUE", ";", "--", ")"], '\'' ∉ mood.toList ∧
    ∃ r r', read {} .postgresql (String.ofList (daysLayout "").text) = .ok r ∧
      read {} .postgresql (String.ofList (daysLayout mood).text) = .ok r' ∧ r'.diagram ≠ r.diagram := by
  have hs : ({} : Outline.Sheet).grid.columns ≠ 0 := by decide
  have hflags : ∀ mood ∈ ["UNIQUE", ";", "--", ")"], '\'' ∉ mood.toList ∧ daysFlags mood ≠ daysFlags "" := by
    decide +kernel
  refine ⟨sound_moodSlot, fun mood hmood => ⟨(hflags mood hmood).1, _, _, read_eq _ _ hs, read_eq _ _ hs, fun h => ?_⟩⟩
  simp only [String.toList_ofList] at h
  refine (hflags mood hmood).2 ?_
  rw [daysFlags, daysFlags, h]

end Erd.Sql
