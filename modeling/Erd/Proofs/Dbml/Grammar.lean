import Erd.Proofs.Dbml.Document
import Erd.Proofs.Outline

/-!
# The grammar of documents

A document is a sequence of blocks and references, said here without a machine that reads it: a block is a
header with its brace on the same or the next line, columns, and a closing brace. Reading a document gives
no diagnostic exactly if its lines that count are derived by this grammar and both ends of every reference
are there, and then its tables are the blocks.

`Follows` says what may come after each state of the reader. One line takes the reader from a state to
another exactly as `Follows` allows (`follows_cons`), and the rest is an induction on the lines.

**Results.**
* `isColumn_iff`: a column line, told by its parts, is what is read as a column.
* `entriesFrom_iff`: from any state, reading gives the items and no fault exactly on what may follow.
* `accepts_iff`: documents without a diagnostic are those that the grammar derives.
-/
namespace Erd.Dbml

open Text

/-! ## The grammar -/

/-- A line of a column: no header and no closing brace, and starting, without the bracket of its settings,
with a name and the spelling of a type. -/
structure IsColumn (text : List Char) (c : Outline.Column) : Prop where
  notHeader : header? text = none
  notClose : text ≠ ['\x7d']
  spelled : ∃ name spelling, nameAndType? (splitSettings text).1 = some (name, spelling) ∧
    c.name = String.ofList name ∧ columnType? spelling = some c.type
  constraints : c.constraints = (settingsOf (splitSettings text).2).constraints

/-- The lines that open the block of a table. -/
inductive Opening : List (List Char) → String → Prop where
  | sameLine {text : List Char} {name : String} : header? text = some ⟨name, true⟩ → Opening [text] name
  | nextLine {text : List Char} {name : String} :
    header? text = some ⟨name, false⟩ → Opening [text, ['\x7b']] name

/-- What a document is made of. -/
inductive Item where
  | table (t : Outline.Table)
  | ref (r : Ref)
  deriving DecidableEq, Repr

/-- Lines that make a document with these items: blocks, of which each line between the braces is a column,
and references. -/
inductive Document : List (List Char) → List Item → Prop where
  | nil : Document [] []
  | ref {text : List Char} {r : Ref} {texts : List (List Char)} {items : List Item} :
    ref? text = some r → Document texts items → Document (text :: texts) (.ref r :: items)
  | block {opening body texts : List (List Char)} {name : String} {columns : List Outline.Column}
    {items : List Item} : Opening opening name → List.Forall₂ IsColumn body columns → Document texts items →
    Document (opening ++ (body ++ ['\x7d'] :: texts)) (.table ⟨name, columns⟩ :: items)

/-- The table of an item. -/
def Item.table? : Item → Option Outline.Table
  | .table t => some t
  | .ref _ => none

/-- The reference of an item. -/
def Item.ref? : Item → Option Ref
  | .ref r => some r
  | .table _ => none

/-- The last table with the name of an end, case aside, has a column with the other name. -/
def HasColumn (tables : List Outline.Table) (e : ColumnName) : Prop :=
  ∃ before t after, tables = before ++ t :: after ∧ nameKey t.name = nameKey e.table ∧
    (∀ u ∈ after, nameKey u.name ≠ nameKey e.table) ∧ ∃ c ∈ t.columns, nameKey c.name = nameKey e.column

/-- Both ends of every reference are there. -/
def Closed (items : List Item) : Prop :=
  ∀ r ∈ items.filterMap Item.ref?,
    HasColumn (items.filterMap Item.table?) r.source ∧ HasColumn (items.filterMap Item.table?) r.target

/-! ## Lines -/

theorem isColumn_iff {text : List Char} {c : Outline.Column} :
    IsColumn text c ↔ header? text = none ∧ text ≠ ['\x7d'] ∧
      ∃ l, ColumnLine.read text = .ok l ∧ l.column = c := by
  constructor
  · rintro ⟨hh, hb, ⟨name, spelling, hn, hname, ht⟩, hc⟩
    refine ⟨hh, hb, ⟨c, (settingsOf (splitSettings text).2).refersTo⟩, ?_, rfl⟩
    obtain ⟨cname, ctype, cflags⟩ := c
    simp only at hname ht hc
    simp only [ColumnLine.read, hn, ht, hname, hc]
  · rintro ⟨hh, hb, l, hl, rfl⟩
    simp only [ColumnLine.read] at hl
    split at hl
    · cases hl
    · next name spelling hn =>
      split at hl
      · cases hl
      · next type ht =>
        cases hl
        exact ⟨hh, hb, ⟨name, spelling, hn, rfl, ht⟩, rfl⟩

/-- A header is announced by another word than a reference. -/
theorem header?_of_ref? {text : List Char} {r : Ref} (h : ref? text = some r) : header? text = none := by
  have hk : (keyword "ref" text).isSome = true := by
    cases hk : keyword "ref" text with
    | some rest => rfl
    | none => simp [ref?, refText?, hk] at h
  have ht : keyword "table" text = none := by
    cases text with
    | nil => rfl
    | cons c s =>
      have hc : foldLatin c = 'r' := by
        by_contra hc
        simp [keyword, dropKeyword, hc] at hk
      simp [keyword, dropKeyword, hc]
  rw [header?, ht]
  rfl

/-! ## What may follow -/

/-- What may follow a brace that has opened a block, with some of the block's columns before. -/
def AfterBrace (name : String) (columns : List Outline.Column) (texts : List (List Char))
    (items : List Item) : Prop :=
  ∃ body more rest items', texts = body ++ ['\x7d'] :: rest ∧ List.Forall₂ IsColumn body more ∧
    Document rest items' ∧ items = .table ⟨name, columns ++ more⟩ :: items'

/-- What may follow a state of the reader. -/
def Follows : Option Block → List (List Char) → List Item → Prop
  | none, texts, items => Document texts items
  | some b, texts, items =>
    if b.isOpen then AfterBrace b.name b.outline.columns texts items
    else ∃ rest, texts = ['\x7b'] :: rest ∧ AfterBrace b.name b.outline.columns rest items

theorem follows_open {b : Block} (hb : b.isOpen = true) {texts : List (List Char)} {items : List Item} :
    Follows (some b) texts items ↔ AfterBrace b.name b.outline.columns texts items := by
  simp only [Follows, hb, if_true]

theorem follows_waiting {b : Block} (hb : b.isOpen = false) {texts : List (List Char)}
    {items : List Item} :
    Follows (some b) texts items ↔
      ∃ rest, texts = ['\x7b'] :: rest ∧ AfterBrace b.name b.outline.columns rest items := by
  simp only [Follows, hb, Bool.false_eq_true, if_false]

/-- An open block goes on with one more column. -/
theorem follows_add {b : Block} (hb : b.isOpen = true) (c : ColumnLine) {texts : List (List Char)}
    {items : List Item} : Follows (some (b.add c)) texts items ↔
      AfterBrace b.name (b.outline.columns ++ [c.column]) texts items := by
  have hadd : (b.add c).outline.columns = b.outline.columns ++ [c.column] := by
    simp [Block.add, Block.outline]
  have hopen : (b.add c).isOpen = true := hb
  rw [follows_open hopen, hadd]
  rfl

/-- Nothing more may follow only outside of blocks. -/
theorem follows_nil {current : Option Block} {items : List Item} :
    Follows current [] items ↔ current = none ∧ items = [] := by
  cases current with
  | none =>
    constructor
    · intro h
      generalize hs : ([] : List (List Char)) = texts at h
      cases h with
      | nil => exact ⟨rfl, rfl⟩
      | ref => cases hs
      | block ho => cases ho <;> cases hs
    · rintro ⟨-, rfl⟩
      exact .nil
  | some b =>
    cases hb : b.isOpen with
    | false => simp [follows_waiting hb]
    | true => simp [follows_open hb, AfterBrace]

theorem afterBrace_cons {name : String} {columns : List Outline.Column} {text : List Char}
    {texts : List (List Char)} {items : List Item} :
    AfterBrace name columns (text :: texts) items ↔
      (text = ['\x7d'] ∧ ∃ rest, Document texts rest ∧ items = .table ⟨name, columns⟩ :: rest) ∨
        ∃ c, IsColumn text c ∧ AfterBrace name (columns ++ [c]) texts items := by
  constructor
  · rintro ⟨body, more, rest, items', ht, hc, hd, rfl⟩
    cases hc with
    | nil =>
      obtain ⟨rfl, rfl⟩ := List.cons.inj ht
      exact .inl ⟨rfl, items', hd, by simp⟩
    | cons h hs =>
      obtain ⟨rfl, rfl⟩ := List.cons.inj ht
      exact .inr ⟨_, h, _, _, rest, items', rfl, hs, hd, by simp⟩
  · rintro (⟨rfl, rest, hd, rfl⟩ | ⟨c, hc, body, more, rest, items', rfl, hs, hd, rfl⟩)
    · exact ⟨[], [], texts, rest, rfl, .nil, hd, by simp⟩
    · exact ⟨text :: body, c :: more, rest, items', rfl, .cons hc hs, hd, by simp⟩

theorem document_cons {text : List Char} {texts : List (List Char)} {items : List Item} :
    Document (text :: texts) items ↔
      (∃ r rest, ref? text = some r ∧ Document texts rest ∧ items = .ref r :: rest) ∨
        ∃ h, header? text = some h ∧ Follows (some ⟨h.name, 0, h.opens, []⟩) texts items := by
  constructor
  · intro h
    generalize hs : text :: texts = all at h
    cases h with
    | nil => cases hs
    | ref hr hd =>
      obtain ⟨rfl, rfl⟩ := List.cons.inj hs
      exact .inl ⟨_, _, hr, hd, rfl⟩
    | block ho hc hd =>
      cases ho with
      | sameLine hh =>
        obtain ⟨rfl, rfl⟩ := List.cons.inj hs
        exact .inr ⟨_, hh, _, _, _, _, rfl, hc, hd, rfl⟩
      | nextLine hh =>
        obtain ⟨rfl, rfl⟩ := List.cons.inj hs
        exact .inr ⟨_, hh, _, rfl, _, _, _, _, rfl, hc, hd, rfl⟩
  · rintro (⟨r, rest, hr, hd, rfl⟩ | ⟨⟨name, isOpen⟩, hh, h⟩)
    · exact .ref hr hd
    · cases isOpen with
      | true =>
        obtain ⟨body, more, rest, items', rfl, hc, hd, rfl⟩ := h
        exact .block (.sameLine hh) hc hd
      | false =>
        obtain ⟨rest, rfl, body, more, rest, items', rfl, hc, hd, rfl⟩ := h
        exact .block (.nextLine hh) hc hd

/-! ## Reading -/

/-- The item of an entry, unless it is a fault. -/
def Entry.item? : Entry → Option Item
  | .table b => some (.table b.outline)
  | .ref _ r => some (.ref r)
  | .fault _ _ => none

/-- The entries are these items and hold no fault. -/
def Gives (es : List Entry) (items : List Item) : Prop :=
  List.Forall₂ (fun e i => e.item? = some i) es items

theorem gives_append {es fs : List Entry} {items : List Item} :
    Gives (es ++ fs) items ↔ ∃ left right, Gives es left ∧ Gives fs right ∧ items = left ++ right := by
  unfold Gives
  induction es generalizing items with
  | nil => simp
  | cons e es ih =>
    simp only [List.cons_append, List.forall₂_cons_left_iff, ih]
    constructor
    · rintro ⟨i, _, he, ⟨left, right, hl, hr, rfl⟩, rfl⟩
      exact ⟨i :: left, right, ⟨i, left, he, hl, rfl⟩, hr, rfl⟩
    · rintro ⟨_, right, ⟨i, left, he, hl, rfl⟩, hr, rfl⟩
      exact ⟨i, left ++ right, he, ⟨left, right, hl, hr, rfl⟩, rfl⟩

@[simp] theorem gives_nil {items : List Item} : Gives [] items ↔ items = [] := List.forall₂_nil_left_iff

@[simp] theorem not_gives_fault {n : Nat} {f : Fault} {es : List Entry} {items : List Item} :
    ¬ Gives (.fault n f :: es) items := by
  simp [Gives, List.forall₂_cons_left_iff, Entry.item?]

@[simp] theorem gives_entry {e : Entry} {i : Item} (h : e.item? = some i) {items : List Item} :
    Gives [e] items ↔ items = [i] := by
  simp [Gives, List.forall₂_cons_left_iff, h, eq_comm]

/-- A block that ends unclosed gives a fault. -/
theorem gives_unclosed {current : Option Block} {items : List Item} :
    Gives (unclosed current) items ↔ current = none ∧ items = [] := by
  cases current <;> simp [unclosed]

/-- The brace that closes a block is no header. -/
theorem header?_close : header? ['\x7d'] = none := rfl

theorem header?_open : header? ['\x7b'] = none := rfl

/-- A header may follow only outside of blocks. -/
theorem not_follows_header {text : List Char} {h : Header} (hh : header? text = some h) {b : Block}
    {texts : List (List Char)} {items : List Item} : ¬ Follows (some b) (text :: texts) items := by
  cases hb : b.isOpen with
  | false =>
    rw [follows_waiting hb]
    rintro ⟨rest, ht, -⟩
    rw [(List.cons.inj ht).1, header?_open] at hh
    cases hh
  | true =>
    rw [follows_open hb, afterBrace_cons]
    rintro (⟨rfl, -⟩ | ⟨c, hc, -⟩)
    · rw [header?_close] at hh
      cases hh
    · rw [hc.notHeader] at hh
      cases hh

/-- One line takes the reader from a state to the next as the grammar allows. -/
theorem follows_cons {l : Line} (hi : l.isIdle = false) (current : Option Block)
    {texts : List (List Char)} {items : List Item} :
    Follows current (l.text :: texts) items ↔ ∃ left right, Gives (step current l).1 left ∧
      Follows (step current l).2 texts right ∧ items = left ++ right := by
  cases hh : header? l.text with
  | some h =>
    rw [step_of_header hi hh]
    cases current with
    | none =>
      have hr : ref? l.text = none := by
        cases hr : ref? l.text with
        | none => rfl
        | some r =>
          rw [header?_of_ref? hr] at hh
          cases hh
      have hf : Follows none (l.text :: texts) items ↔
          Follows (some ⟨h.name, l.number, h.opens, []⟩) texts items := by
        refine document_cons.trans ?_
        simp only [hr, hh, reduceCtorEq, false_and, exists_false, false_or, Option.some.injEq,
          exists_eq_left']
        exact Iff.rfl
      simp [hf, unclosed]
    | some b => simp [not_follows_header hh, unclosed]
  | none =>
    cases current with
    | none =>
      rw [step_outside hi hh]
      have hf : Follows none (l.text :: texts) items ↔
          ∃ r rest, ref? l.text = some r ∧ Document texts rest ∧ items = .ref r :: rest := by
        refine document_cons.trans ?_
        simp [hh]
      rw [hf, outsideEntry]
      cases hr : ref? l.text with
      | none => simp
      | some r => simp [gives_entry (e := .ref l.number r) rfl, Follows]
    | some b =>
      cases hb : b.isOpen with
      | false =>
        rw [step_waiting hi hb hh, follows_waiting hb]
        by_cases ht : l.text = ['\x7b']
        · simp [ht, follows_open, Block.outline]
        · simp [ht]
      | true =>
        rw [step_inside hi hb hh, follows_open hb, afterBrace_cons]
        by_cases ht : l.text = ['\x7d']
        · have hc (c : Outline.Column) : ¬ IsColumn ['\x7d'] c := fun h => h.notClose rfl
          simp [ht, hc, gives_entry (e := .table b) rfl, Follows, Block.outline]
        · cases hc : ColumnLine.read l.text with
          | error f => simp [ht, isColumn_iff, hc]
          | ok c =>
            simp [ht, isColumn_iff, hc, hh, follows_add hb]

/-- From any state, reading gives these items and no fault exactly on what may follow. -/
theorem entriesFrom_iff {ls : List Line} (hi : ∀ l ∈ ls, l.isIdle = false) (current : Option Block)
    {items : List Item} :
    Gives (entriesFrom current ls) items ↔ Follows current (ls.map Line.text) items := by
  induction ls generalizing current items with
  | nil => rw [List.map_nil, follows_nil, entriesFrom, gives_unclosed]
  | cons l ls ih =>
    obtain ⟨hl, hls⟩ := List.forall_mem_cons.mp hi
    rw [List.map_cons, follows_cons hl, entriesFrom_cons, gives_append]
    simp only [ih hls]

/-! ## Ends -/

theorem find?_of_tableNamed? (tables : List Outline.Table) (name : String) :
    (Outline.tableNamed? tables name).map Prod.snd =
      tables.reverse.find? fun t => nameKey t.name == nameKey name := by
  have h : tables.reverse = tables.zipIdx.reverse.map Prod.fst := by
    rw [List.map_reverse, List.zipIdx_map_fst]
  rw [h, List.find?_map, Outline.tableNamed?, Option.map_map]
  rfl

/-- An end is there if and only if it is found by its names. -/
theorem hasColumn_iff {tables : List Outline.Table} {e : ColumnName} :
    HasColumn tables e ↔ (place? tables e).isSome := by
  have hplace : (place? tables e).isSome ↔ ∃ t,
      (tables.reverse.find? fun t => nameKey t.name == nameKey e.table) = some t ∧
        ∃ c ∈ t.columns, nameKey c.name = nameKey e.column := by
    rw [← find?_of_tableNamed?, place?]
    cases Outline.tableNamed? tables e.table with
    | none => simp
    | some p => simp [Outline.Table.columnNamed?]
  rw [hplace, HasColumn]
  constructor
  · rintro ⟨before, t, after, rfl, hk, hu, hc⟩
    refine ⟨t, List.find?_eq_some_iff_append.mpr ⟨by simp [hk], after.reverse, before.reverse, ?_, ?_⟩, hc⟩
    · simp
    · simpa using hu
  · rintro ⟨t, ht, hc⟩
    obtain ⟨hk, as, bs, hs, hu⟩ := List.find?_eq_some_iff_append.mp ht
    refine ⟨bs.reverse, t, as.reverse, ?_, by simpa using hk, by simpa using hu, hc⟩
    have := congrArg List.reverse hs
    simpa using this

/-! ## Documents without a diagnostic -/

theorem no_fault_iff {es : List Entry} : es.filterMap Entry.fault? = [] ↔ ∃ items, Gives es items := by
  constructor
  · intro h
    induction es with
    | nil => exact ⟨[], .nil⟩
    | cons e es ih =>
      cases e with
      | fault n f => cases h
      | table b =>
        obtain ⟨items, hi⟩ := ih h
        exact ⟨.table b.outline :: items, .cons rfl hi⟩
      | ref n r =>
        obtain ⟨items, hi⟩ := ih h
        exact ⟨.ref r :: items, .cons rfl hi⟩
  · rintro ⟨items, h⟩
    induction h with
    | nil => rfl
    | cons he _ ih =>
      rename_i e i es items _
      cases e with
      | fault n f => cases he
      | table b => exact ih
      | ref n r => exact ih

/-- The blocks and the references of the entries are those of the items. -/
theorem Gives.parts {es : List Entry} {items : List Item} (h : Gives es items) :
    (es.filterMap Entry.block?).map Block.outline = items.filterMap Item.table? ∧
      (es.filterMap Entry.ref?).map Prod.snd = items.filterMap Item.ref? := by
  induction h with
  | nil => exact ⟨rfl, rfl⟩
  | cons he _ ih =>
    rename_i e i es items _
    cases e with
    | fault n f => cases he
    | table b =>
      cases he
      exact ⟨congrArg (b.outline :: ·) ih.1, ih.2⟩
    | ref n r =>
      cases he
      exact ⟨ih.1, congrArg (r :: ·) ih.2⟩

/-- The lines of a document that count, as texts. -/
def significantTexts (document : String) : List (List Char) :=
  (significantLines document.toList).map Line.text

theorem gives_entries_iff {document : String} {items : List Item} :
    Gives (entries document.toList) items ↔ Document (significantTexts document) items := by
  rw [entries_eq]
  exact entriesFrom_iff (isIdle_significantLines _) none

theorem refs_linked_iff {s : List Char} {items : List Item} (h : Gives (entries s) items) :
    (∀ q ∈ refsOf s, refFault? (tablesOf s) q = none) ↔ Closed items := by
  obtain ⟨htables, hrefs⟩ := h.parts
  simp only [Closed, refFault?_eq_none_iff, refLink_isOk_iff, hasColumn_iff, ← htables, ← hrefs,
    List.forall_mem_map]
  rfl

theorem faultsOf_eq_nil_iff {document : String} : faultsOf document.toList = [] ↔
    ∃ items, Document (significantTexts document) items ∧ Closed items := by
  rw [faultsOf, List.append_eq_nil_iff, no_fault_iff, List.filterMap_eq_nil_iff]
  constructor
  · rintro ⟨⟨items, hg⟩, hl⟩
    exact ⟨items, gives_entries_iff.mp hg, (refs_linked_iff hg).mp hl⟩
  · rintro ⟨items, hd, hc⟩
    have hg := gives_entries_iff.mpr hd
    exact ⟨⟨items, hg⟩, (refs_linked_iff hg).mpr hc⟩

/-- A document is read without a diagnostic if and only if its lines that count are blocks and references
and both ends of every reference are there. The tables are then the blocks, in order, with a column for
each line between the braces. -/
theorem accepts_iff {s : Outline.Sheet} (hs : s.grid.columns ≠ 0) (document : String) :
    ∃ r, read s document = .ok r ∧
      (r.diagnostics = [] ↔ ∃ items, Document (significantTexts document) items ∧ Closed items) ∧
      ∀ items, Document (significantTexts document) items →
        r.diagram.tables.map Table.outline = items.filterMap Item.table? := by
  refine ⟨_, read_eq hs document, ?_, fun items hd => ?_⟩
  · rw [diagnostics_draft, List.map_eq_nil_iff, faultsOf_eq_nil_iff]
  · rw [Outline.outlines_draw, tables_draft]
    exact (gives_entries_iff.mpr hd).parts.1

/-- A comment between a header and its brace, a reference to the table after it, and a column called like
the word that announces a reference. -/
def shelf : String :=
  "Table authors\n// writers\n\x7b\n  \"Ref: id\" int [pk]\n\x7d\nref: AUTHORS.\"ref: ID\" < books.author\n" ++
    "Table books \x7b\n  author integer\n\x7d"

/-- The items of the shelf. -/
def shelfItems : List Item :=
  [.table ⟨"authors", [⟨"Ref: id", .int, { isPrimaryKey := true, isNullable := false }⟩]⟩,
    .ref ⟨.oneToMany, ⟨"AUTHORS", "ref: ID"⟩, ⟨"books", "author"⟩⟩,
    .table ⟨"books", [⟨"author", .int, {}⟩]⟩]

theorem document_shelf : Document (significantTexts shelf) shelfItems := by
  have hs : significantTexts shelf =
      ["Table authors".toList, ['\x7b']] ++ (["\"Ref: id\" int [pk]".toList] ++ ['\x7d'] ::
        "ref: AUTHORS.\"ref: ID\" < books.author".toList ::
          (["Table books \x7b".toList] ++ (["author integer".toList] ++ ['\x7d'] :: []))) := by
    decide +kernel
  rw [hs]
  refine .block (.nextLine (by decide +kernel)) (.cons (isColumn_iff.mpr ?_) .nil)
    (.ref (by decide +kernel) (.block (.sameLine (by decide +kernel)) (.cons (isColumn_iff.mpr ?_) .nil) .nil))
  · exact ⟨by decide +kernel, by decide, ⟨_, none⟩, by decide +kernel, rfl⟩
  · exact ⟨by decide +kernel, by decide, ⟨_, none⟩, by decide +kernel, rfl⟩

theorem closed_shelf : Closed shelfItems := by
  intro r hr
  obtain rfl := List.mem_singleton.mp hr
  exact ⟨hasColumn_iff.mpr (by decide +kernel), hasColumn_iff.mpr (by decide +kernel)⟩

theorem accepts_iff_shelf : ({} : Outline.Sheet).grid.columns ≠ 0 ∧ ∃ r, read {} shelf = .ok r ∧
    r.diagnostics = [] ∧ r.diagram.tables.map Table.outline = shelfItems.filterMap Item.table? := by
  obtain ⟨r, hr, hclean, htables⟩ := accepts_iff (s := {}) (by decide) shelf
  exact ⟨by decide, r, hr, hclean.mpr ⟨shelfItems, document_shelf, closed_shelf⟩,
    htables shelfItems document_shelf⟩

end Erd.Dbml
