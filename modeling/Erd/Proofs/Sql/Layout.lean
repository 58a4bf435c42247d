import Erd.Proofs.Search
import Erd.Proofs.Sql.Arrangement

/-!
# Statements taken apart

The head of a table definition is read up to the parenthesis that opens the body, and no scanner looks past
that parenthesis. So what a statement comes to is told by the text in front of its body and by the
definitions in it. If only keys move among the definitions, the statement defines a table of the same name
and columns, or has the same fault on the same line.

**Results.**
* `tableHead?_append_open`: the head of a table definition is what stands in front of its body.
* `Layout.read_text`: what a statement comes to, by its head and its definitions.
* `Layout.outcomes_moved`: the same with keys moved.
-/
namespace Erd.Sql

open Text

/-! ## What scanners leave -/

theorem keyword_suffix {word : String} {s rest : List Char} (h : keyword word s = some rest) : rest <:+ s := by
  obtain ⟨taken, rfl, -⟩ := dropKeyword_eq_some h
  exact List.suffix_append _ _

theorem skipBlanks?_suffix {s rest : List Char} (h : skipBlanks? s = some rest) : rest <:+ s := by
  obtain ⟨blanks, rfl⟩ := skipBlanks?_eq_some h
  exact List.suffix_append _ _

theorem bind_skipBlanks?_suffix {s rest : List Char} {o : Option (List Char)} (ho : ∀ t ∈ o, t <:+ s)
    (h : o.bind skipBlanks? = some rest) : rest <:+ s := by
  obtain ⟨t, ht, hrest⟩ := Option.bind_eq_some_iff.mp h
  exact (skipBlanks?_suffix hrest).trans (ho t ht)

theorem phrase_suffix {words : List String} {s rest : List Char} (h : phrase words s = some rest) :
    rest <:+ s := by
  induction words generalizing s with
  | nil =>
    cases h
    exact List.suffix_refl _
  | cons word words ih =>
    cases words with
    | nil => exact keyword_suffix h
    | cons next words =>
      obtain ⟨t, ht, hrest⟩ := Option.bind_eq_some_iff.mp h
      exact (ih hrest).trans (bind_skipBlanks?_suffix (fun u hu => keyword_suffix hu) ht)

theorem dropQuote_suffix (s : List Char) : dropQuote s <:+ s := by
  cases s with
  | nil => exact List.suffix_refl _
  | cons c s =>
    rw [dropQuote]
    split
    · exact List.suffix_cons _ _
    · exact List.suffix_refl _

theorem looseWord?_suffix {s : List Char} {p : List Char × List Char} (h : looseWord? s = some p) :
    p.2 <:+ s := by
  simp only [looseWord?] at h
  split at h
  · cases h
  · cases h
    exact (dropQuote_suffix _).trans ((List.dropWhile_suffix _).trans (dropQuote_suffix s))

theorem tableName?_suffix {s : List Char} {p : List Char × List Char} (h : tableName? s = some p) :
    p.2 <:+ s := by
  unfold tableName? at h
  split at h
  · next rest hschema =>
    exact (looseWord?_suffix h).trans ((List.suffix_cons _ _).trans (looseWord?_suffix hschema))
  · exact looseWord?_suffix h

/-! ## Heads of table definitions -/

/-- The name of the table that a statement announces, and the rest, where its body should start. -/
def headName? (s : List Char) : Option (List Char × List Char) :=
  ((phrase ["create", "table"] s).bind skipBlanks?).bind fun t =>
    tableName? (((phrase ["if", "not", "exists"] t).bind skipBlanks?).getD t)

theorem tableHead?_eq_headName? (s : List Char) : tableHead? s =
    (headName? s).bind fun p => (bodyStart? p.2).map fun body => (p.1, body) := by
  rw [tableHead?_eq, headName?, ← Option.bind_assoc]

theorem headName?_suffix {s : List Char} {p : List Char × List Char} (h : headName? s = some p) :
    p.2 <:+ s := by
  obtain ⟨t, ht, h⟩ := Option.bind_eq_some_iff.mp h
  refine (tableName?_suffix h).trans (List.IsSuffix.trans ?_
    (bind_skipBlanks?_suffix (fun u hu => phrase_suffix hu) ht))
  cases hu : (phrase ["if", "not", "exists"] t).bind skipBlanks? with
  | none => exact List.suffix_refl _
  | some u => exact bind_skipBlanks?_suffix (fun v hv => phrase_suffix hv) hu

section Open

variable (s x : List Char)

/-- A scanner that does not look past an opening parenthesis is followed by another one. -/
theorem bind_append_open {f g : List Char → Option (List Char)}
    (hf : f (s ++ '(' :: x) = (f s).map (· ++ '(' :: x))
    (hg : ∀ t, g (t ++ '(' :: x) = (g t).map (· ++ '(' :: x)) :
    (f (s ++ '(' :: x)).bind g = ((f s).bind g).map (· ++ '(' :: x) := by
  rw [hf]
  cases f s with
  | none => rfl
  | some t => exact hg t

theorem dropQuote_append_open : dropQuote (s ++ '(' :: x) = dropQuote s ++ '(' :: x := by
  cases s with
  | nil => rfl
  | cons c s =>
    rw [List.cons_append, dropQuote, dropQuote]
    split <;> rfl

theorem looseWord?_append_open :
    looseWord? (s ++ '(' :: x) = (looseWord? s).map (Prod.map id (· ++ '(' :: x)) := by
  have hleading : leadingWord (dropQuote s ++ '(' :: x) = leadingWord (dropQuote s) :=
    takeWhile_append_cons rfl _ _
  have hafter : afterWord (dropQuote s ++ '(' :: x) = afterWord (dropQuote s) ++ '(' :: x :=
    dropWhile_append_cons rfl _ _
  simp only [looseWord?, dropQuote_append_open, hleading, hafter]
  split <;> rfl

theorem tableName?_append_open :
    tableName? (s ++ '(' :: x) = (tableName? s).map (Prod.map id (· ++ '(' :: x)) := by
  rw [tableName?, tableName?, looseWord?_append_open]
  cases looseWord? s with
  | none => rfl
  | some p =>
    obtain ⟨word, rest⟩ := p
    cases rest with
    | nil => rfl
    | cons c u =>
      by_cases hc : c = '.'
      · subst hc
        exact looseWord?_append_open u x
      · simp [hc]

theorem headName?_append_open :
    headName? (s ++ '(' :: x) = (headName? s).map (Prod.map id (· ++ '(' :: x)) := by
  have hskip (t : List Char) := skipBlanks?_append_sign (d := '(') rfl t x
  have hcreate := bind_append_open (f := phrase ["create", "table"]) s x
    (phrase_append_sign rfl (by decide) (by decide) s x) hskip
  rw [headName?, headName?, hcreate]
  cases (phrase ["create", "table"] s).bind skipBlanks? with
  | none => rfl
  | some t =>
    have hif := bind_append_open (f := phrase ["if", "not", "exists"]) t x
      (phrase_append_sign rfl (by decide) (by decide) t x) hskip
    rw [Option.map_some, Option.bind_some, Option.bind_some, hif, ← tableName?_append_open]
    cases (phrase ["if", "not", "exists"] t).bind skipBlanks? <;> rfl

theorem definesTable_append_open : definesTable (s ++ '(' :: x) = definesTable s := by
  rw [definesTable, definesTable, phrase_append_sign (d := '(') rfl (by decide) (by decide)]
  cases phrase ["create", "table"] s with
  | none => rfl
  | some t => cases t <;> rfl

variable {s} (h : '(' ∉ s)

include h

theorem bodyStart?_append_open :
    bodyStart? (s ++ '(' :: x) = if isBlankText s then some ('(' :: x) else none := by
  rw [bodyStart?, trimStart_append_sign (d := '(') rfl]
  cases ht : trimStart s with
  | nil =>
    have hblank : isBlankText s = true := List.all_eq_true.mpr (List.dropWhile_eq_nil_iff.mp ht)
    rw [if_pos hblank]
    rfl
  | cons c t =>
    have hne : c ≠ '(' := fun hc => h ((List.dropWhile_suffix _).subset (hc ▸ ht ▸ List.mem_cons_self))
    have hblank : ¬ isBlankText s = true := fun hb => by
      have := List.dropWhile_eq_nil_iff.mpr (List.all_eq_true.mp hb)
      rw [trimStart, this] at ht
      cases ht
    rw [if_neg hblank]
    simp [hne]

/-- The head of a table definition is what stands in front of its body. -/
theorem tableHead?_append_open : tableHead? (s ++ '(' :: x) =
    ((headName? s).filter fun p => isBlankText p.2).map fun p => (p.1, '(' :: x) := by
  rw [tableHead?_eq_headName?, headName?_append_open]
  cases hp : headName? s with
  | none => rfl
  | some p =>
    have hopen := bodyStart?_append_open x fun hm => h ((headName?_suffix hp).subset hm)
    rw [Option.map_some, Option.bind_some, Prod.map_snd, hopen]
    cases hb : isBlankText p.2 <;> simp [hb, Option.filter]

end Open

/-! ## Statements -/

/-- A statement with a body, taken apart: what stands in front of the body, the texts between the commas of
the body, and what stands after it. -/
structure Layout where
  stem : List Char
  items : List (List Char)
  tail : List Char

namespace Layout

/-- The text of the statement. -/
def text (l : Layout) : List Char := l.stem ++ '(' :: (join ',' l.items ++ ')' :: l.tail)

/-- The body is the first parenthesis of the statement and ends where it is closed, and each of the texts in
it is settled. The keys among them are enclosed, too. -/
structure Sound (l : Layout) : Prop where
  stem : '(' ∉ l.stem
  items : ∀ x ∈ l.items, Settled x
  body : Enclosed (join ',' l.items)
  keys : ∀ x ∈ l.items, isKeyText x = true → Enclosed x

/-- The statement with other texts in its body. -/
def withItems (l : Layout) (ys : List (List Char)) : Layout := { l with items := ys }

/-- The definitions in the body. -/
def definitions (l : Layout) : List Definition := (Sql.definitions (join ',' l.items)).map Definition.read

/-- The name of the table, or what is wrong with the head of the statement. -/
def name (l : Layout) : Except StatementFault String :=
  if definesTable (trimStart l.stem) then
    match (headName? (trimStart l.stem)).filter fun p => isBlankText p.2 with
    | some p => .ok (String.ofList p.1)
    | none => .error .malformed
  else .error .unsupported

theorem trim_text (l : Layout) :
    trim l.text = trimStart l.stem ++ '(' :: (join ',' l.items ++ ')' :: trimEnd l.tail) := by
  rw [trim, text, trimStart_append_sign (d := '(') rfl, ← List.cons_append, ← List.append_assoc,
    trimEnd_append_cons rfl, List.append_assoc, List.cons_append]

/-- What a statement comes to is told by its head and by the definitions in its body. -/
theorem read_text {l : Layout} (hstem : '(' ∉ l.stem) (hbody : Enclosed (join ',' l.items)) :
    TableDefinition.read (trim l.text) = l.name.map fun n => ⟨n, l.definitions⟩ := by
  have hopen : '(' ∉ trimStart l.stem := fun hm => hstem ((List.dropWhile_suffix _).subset hm)
  rw [trim_text, TableDefinition.read, definesTable_append_open, tableHead?_append_open _ hopen, name]
  split
  · cases (headName? (trimStart l.stem)).filter fun p => isBlankText p.2 with
    | none => rfl
    | some p =>
      simp only [Option.map_some, Option.bind_some, body?_enclosed hbody]
      rfl
  · rfl

theorem outcomes_text {l : Layout} (hu : Uncommented l.text) (hsep : ';' ∉ l.text) :
    outcomes l.text = [⟨1 + newlines (l.stem.takeWhile isBlank), TableDefinition.read (trim l.text)⟩] := by
  have hopen : ¬ isBlankText l.text = true := by
    simp [text, isBlankText, isBlank]
  have hline : l.text.takeWhile isBlank = l.stem.takeWhile isBlank := takeWhile_append_cons rfl _ _
  rw [outcomes, statements, stripComments_eq_self hu, splitOn_eq_self hsep, statementsFrom, if_neg hopen, hline]
  rfl

/-! ## Keys that move -/

section Moved

variable {l : Layout} {ys : List (List Char)}

/-- Texts in another order make a statement of the same characters. -/
theorem text_perm (h : ys.Perm l.items) : (l.withItems ys).text.Perm l.text :=
  (((join_perm h).append_right _).cons _).append_left _

/-- Texts in another order start no comment. -/
theorem uncommented_perm (h : ys.Perm l.items) (hu : Uncommented l.text) :
    Uncommented (l.withItems ys).text := by
  have hpair {a b : Char} (ha : a ∉ ['(', ')', ',']) (hb : b ∉ ['(', ')', ',']) (hl : ¬ [a, b] <:+: l.text) :
      ¬ [a, b] <:+: (l.withItems ys).text := by
    simp only [List.mem_cons, List.not_mem_nil, or_false, not_or] at ha hb
    have htail : join ',' l.items ++ ')' :: l.tail <:+: l.text :=
      ((List.suffix_cons _ _).trans (List.suffix_append _ _)).isInfix
    intro hi
    rcases pair_infix_append ha.1 hb.1 hi with hi | hi
    · exact hl (hi.trans (List.prefix_append _ _).isInfix)
    · rcases pair_infix_append ha.2.1 hb.2.1 hi with hi | hi
      · obtain ⟨y, hy, hyi⟩ := pair_infix_join ha.2.2 hb.2.2 hi
        have hjoin := infix_join_of_mem ',' (h.mem_iff.mp hy)
        exact hl (hyi.trans (hjoin.trans ((List.prefix_append _ _).isInfix.trans htail)))
      · exact hl (hi.trans (((List.suffix_cons _ _).trans (List.suffix_append _ _)).isInfix.trans htail))
  exact ⟨hpair (by decide) (by decide) hu.1, hpair (by decide) (by decide) hu.2⟩

/-- With keys moved a statement has the same head, and keys have moved among its definitions. -/
theorem outcomes_moved (hl : l.Sound) (hm : Moved isKeyText l.items ys) (hu : Uncommented l.text)
    (hsep : ';' ∉ l.text) : ∃ (line : Nat) (name : Except StatementFault String) (ds es : List Definition),
      Moved Definition.isKey ds es ∧ outcomes l.text = [⟨line, name.map fun n => ⟨n, ds⟩⟩] ∧
        outcomes (l.withItems ys).text = [⟨line, name.map fun n => ⟨n, es⟩⟩] := by
  have hsep' : ';' ∉ (l.withItems ys).text := fun hc =>
    hsep ((text_perm hm.perm).mem_iff.mp hc)
  refine ⟨1 + newlines (l.stem.takeWhile isBlank), l.name, l.definitions,
    (l.withItems ys).definitions, moved_definitions hm hl.items, ?_, ?_⟩
  · rw [outcomes_text hu hsep, read_text hl.stem hl.body]
  · rw [outcomes_text (uncommented_perm hm.perm hu) hsep',
      read_text (l := l.withItems ys) hl.stem (enclosed_join_of_moved hm hl.keys hl.body)]
    rfl

end Moved

end Layout

end Erd.Sql
