import Erd.Proofs.Dbml.Line
import Erd.Proofs.Dbml.Parts

/-!
# Reading back written DBML

The document of a diagram is a list of blocks of lines with blank lines between them. Each block gives one
entry of its own, whatever stands after it, and so the document gives the tables and then the references.
What the entries name is found again because names are distinct.

**Results.**
* `lines_write`: the lines of a written document.
* `entries_write`: a written document gives one block for each table, one reference for each relationship
  that resolves, and no fault.
* `read_write`: a diagram is read back up to its ids, its positions and the flags that DBML does not keep.
-/
namespace Erd.Dbml

open Text

/-! ## Lines -/

/-- The lines of a table as they are written. -/
def tableTexts (t : Table) : List String :=
  ("Table " ++ writtenName t.name ++ " \x7b") :: t.columns.map columnText ++ ["\x7d"]

/-- The lines of a table without the blanks around them. -/
def tableLines (t : Table) : List (List Char) :=
  headerLine t.name :: t.columns.map columnLine ++ [['\x7d']]

/-- The reference that is written for a relationship. -/
def refOf (p : Resolved) : Ref :=
  ⟨p.relationship.cardinality, ⟨p.sourceTable.name, p.sourceColumn.name⟩,
    ⟨p.targetTable.name, p.targetColumn.name⟩⟩

/-- The names of a table can be written, and no bracket in the name of a column stays open. -/
structure WritableTable (t : Table) : Prop where
  name : Writable t.name
  columns : ∀ c ∈ t.columns, Writable c.name ∧ bracketsClosed c.name.toList = true

/-- The lines of a table are read as they were written. -/
structure LegibleTable (t : Table) : Prop where
  name : Writable t.name
  columns : ∀ c ∈ t.columns, Legible c.name

theorem WritableTable.legible {t : Table} (h : WritableTable t) : LegibleTable t :=
  ⟨h.name, fun c hc => (h.columns c hc).1.legible (h.columns c hc).2⟩

theorem toList_headerText (name : String) :
    ("Table " ++ writtenName name ++ " \x7b").toList = headerLine name := by
  rw [String.toList_append, String.toList_append, List.append_assoc]
  rfl

theorem toList_refLineText (p : Resolved) : (refLineText p).toList = refLine (refOf p) := by
  have he (t : Table) (c : Column) : (endText t c).toList = endLine ⟨t.name, c.name⟩ := by
    simp [endText, endLine]
  simp only [refLineText, String.toList_append, he, List.append_assoc]
  rfl

theorem oneLine_headerLine {name : String} (h : Writable name) : OneLine (headerLine name) := by
  rw [headerLine, oneLine_append, oneLine_append]
  exact ⟨by unfold OneLine; decide, oneLine_writtenName h.oneLine, by unfold OneLine; decide⟩

theorem oneLine_endLine {e : ColumnName} (h : WritableEnd e) : OneLine (endLine e) := by
  simp only [endLine, oneLine_append, oneLine_cons]
  exact ⟨oneLine_writtenName h.1.oneLine, rfl, oneLine_writtenName h.2.oneLine⟩

theorem oneLine_refLine {r : Ref} (hs : WritableEnd r.source) (ht : WritableEnd r.target) :
    OneLine (refLine r) := by
  have hsign : OneLine (signText r.cardinality).toList := by
    unfold OneLine
    cases r.cardinality <;> decide
  have hsp : isLineEnd ' ' = false := rfl
  have hright := oneLine_append.mpr ⟨hsign, oneLine_cons.mpr ⟨hsp, oneLine_endLine ht⟩⟩
  have hends := oneLine_append.mpr ⟨oneLine_endLine hs, oneLine_cons.mpr ⟨hsp, hright⟩⟩
  exact oneLine_append.mpr ⟨by unfold OneLine; decide, hends⟩

/-- Every line of a written table stands on one line. -/
theorem oneLine_tableTexts {t : Table} (h : LegibleTable t) : ∀ x ∈ tableTexts t, OneLine x.toList := by
  intro x hx
  simp only [tableTexts, List.cons_append, List.mem_cons, List.mem_append, List.mem_map,
    List.not_mem_nil, or_false] at hx
  rcases hx with rfl | ⟨c, hc, rfl⟩ | rfl
  · rw [toList_headerText]
    exact oneLine_headerLine h.name
  · rw [toList_columnText, oneLine_cons, oneLine_cons]
    exact ⟨rfl, rfl, oneLine_columnLine (h.columns c hc)⟩
  · unfold OneLine
    decide

/-- Lines that can be told apart again once they are joined: there is one, and each is a line of its own
and not empty. -/
structure Solid (texts : List String) : Prop where
  ne_nil : texts ≠ []
  oneLine : ∀ x ∈ texts, OneLine x.toList
  filled : ∀ x ∈ texts, x.toList ≠ []

theorem Solid.tail {x y : String} {xs : List String} (h : Solid (x :: y :: xs)) : Solid (y :: xs) :=
  ⟨List.cons_ne_nil y xs, fun z hz => h.oneLine z (List.mem_cons_of_mem x hz),
    fun z hz => h.filled z (List.mem_cons_of_mem x hz)⟩

theorem lines_joined_append {texts : List String} (h : Solid texts) (s : List Char) :
    lines (("\n".intercalate texts).toList ++ '\n' :: s) = texts.map String.toList ++ lines s := by
  induction texts with
  | nil => exact absurd rfl h.ne_nil
  | cons x xs ih =>
    have hx := h.oneLine x List.mem_cons_self
    cases xs with
    | nil => simp [lines_append hx]
    | cons y ys =>
      have hs : ("\n".intercalate (x :: y :: ys)).toList ++ '\n' :: s =
          x.toList ++ '\n' :: (("\n".intercalate (y :: ys)).toList ++ '\n' :: s) := by
        simp [String.toList_intercalate]
      rw [hs, lines_append hx, ih h.tail]
      rfl

theorem lines_joined {texts : List String} (h : Solid texts) :
    lines ("\n".intercalate texts).toList = texts.map String.toList := by
  induction texts with
  | nil => exact absurd rfl h.ne_nil
  | cons x xs ih =>
    have hx := h.oneLine x List.mem_cons_self
    cases xs with
    | nil => simpa using lines_eq_self hx (h.filled x List.mem_cons_self)
    | cons y ys =>
      have hs : ("\n".intercalate (x :: y :: ys)).toList =
          x.toList ++ '\n' :: ("\n".intercalate (y :: ys)).toList := by
        simp [String.toList_intercalate]
      rw [hs, lines_append hx, ih h.tail]
      rfl

/-- Blocks of lines with a blank line between any two. -/
theorem lines_blocks {blocks : List (List String)} (h : ∀ b ∈ blocks, Solid b) :
    lines ("\n\n".intercalate (blocks.map ("\n".intercalate ·))).toList =
      [[]].intercalate (blocks.map (List.map String.toList)) := by
  induction blocks with
  | nil => rfl
  | cons b bs ih =>
    have hb := h b List.mem_cons_self
    cases bs with
    | nil => simpa using lines_joined hb
    | cons b' bs =>
      have hi := ih fun x hx => h x (List.mem_cons_of_mem b hx)
      have hs : ("\n\n".intercalate ((b :: b' :: bs).map ("\n".intercalate ·))).toList =
          ("\n".intercalate b).toList ++ '\n' :: ([] ++
            '\n' :: ("\n\n".intercalate ((b' :: bs).map ("\n".intercalate ·))).toList) := by
        simp [String.toList_intercalate]
      rw [hs, lines_joined_append hb, lines_append oneLine_nil, hi]
      simp

/-- The blocks of a written document: the lines of each table, and each reference by itself. -/
def documentTexts (d : Diagram) : List (List String) :=
  d.tables.map tableTexts ++ (d.relationships.filterMap d.resolve).map fun p => [refLineText p]

theorem write_eq (d : Diagram) (h : d.tables ≠ []) :
    write d = "\n\n".intercalate ((documentTexts d).map ("\n".intercalate ·)) := by
  have ht : tableText = fun t => "\n".intercalate (tableTexts t) := rfl
  rw [write, if_neg (by simpa using h), documentTexts, ht]
  simp only [List.map_append, List.map_map, Function.comp_def, String.intercalate_singleton]

/-- The blocks without the blanks around their lines. -/
def documentLines (d : Diagram) : List (List (List Char)) :=
  d.tables.map tableLines ++ (d.relationships.filterMap d.resolve).map fun p => [refLine (refOf p)]

/-- The names of a diagram can be written in DBML and told apart: none is empty, holds a double quote or a
line end, no bracket in the name of a column stays open, and the tables, as the columns of each table,
differ in their names by more than case. -/
structure Expressible (d : Diagram) : Prop where
  writable : ∀ t ∈ d.tables, WritableTable t
  distinctTables : (d.tables.map fun t => nameKey t.name).Nodup
  distinctColumns : ∀ t ∈ d.tables, (t.columns.map fun c => nameKey c.name).Nodup

/-- The lines of a diagram are read as they were written: those of its tables, and those of the relationships
that resolve. -/
structure LegibleLines (d : Diagram) : Prop where
  tables : ∀ t ∈ d.tables, LegibleTable t
  ends : ∀ p ∈ d.relationships.filterMap d.resolve,
    WritableEnd (refOf p).source ∧ WritableEnd (refOf p).target

/-- Where every name can be written, so can those at the ends of the relationships. -/
theorem legibleLines_of_writable {d : Diagram} (h : ∀ t ∈ d.tables, WritableTable t) : LegibleLines d := by
  refine ⟨fun t ht => (h t ht).legible, fun p hp => ?_⟩
  obtain ⟨r, -, hr⟩ := List.mem_filterMap.mp hp
  obtain ⟨⟨hs, hsc⟩, ht, htc⟩ := Diagram.resolve_mem hr
  exact ⟨⟨(h _ hs).name, ((h _ hs).columns _ hsc).1⟩, (h _ ht).name, ((h _ ht).columns _ htc).1⟩

theorem solid_tableTexts {t : Table} (h : LegibleTable t) : Solid (tableTexts t) := by
  refine ⟨by simp [tableTexts], oneLine_tableTexts h, fun x hx => ?_⟩
  simp only [tableTexts, List.cons_append, List.mem_cons, List.mem_append, List.mem_map,
    List.not_mem_nil, or_false] at hx
  rcases hx with rfl | ⟨c, hc, rfl⟩ | rfl
  · simp
  · simp [toList_columnText]
  · simp

theorem map_intercalate {α β : Type} (f : α → β) (sep : List α) (xs : List (List α)) :
    (sep.intercalate xs).map f = (sep.map f).intercalate (xs.map (List.map f)) := by
  induction xs with
  | nil => rfl
  | cons x xs ih =>
    cases xs with
    | nil => simp
    | cons y ys => simpa using ih

theorem solid_refLineText {p : Resolved} (hs : WritableEnd (refOf p).source)
    (ht : WritableEnd (refOf p).target) : Solid [refLineText p] := by
  refine ⟨by simp, ?_, ?_⟩
  · simpa [toList_refLineText] using oneLine_refLine hs ht
  · simp [refLineText]

theorem solid_documentTexts {d : Diagram} (h : LegibleLines d) :
    ∀ b ∈ documentTexts d, Solid b := by
  intro b hb
  rcases List.mem_append.mp hb with hb | hb
  · obtain ⟨t, ht, rfl⟩ := List.mem_map.mp hb
    exact solid_tableTexts (h.tables t ht)
  · obtain ⟨p, hp, rfl⟩ := List.mem_map.mp hb
    obtain ⟨hs, ht⟩ := h.ends p hp
    exact solid_refLineText hs ht

theorem tight_headerLine (name : String) : Tight (headerLine name) := by
  refine tight_of_ends (a := 'T') (z := '\x7b') rfl ?_ (by decide) (by decide)
  have hsplit : headerLine name =
      ['T', 'a', 'b', 'l', 'e', ' '] ++ ((writtenName name).toList ++ [' ']) ++ ['\x7b'] := by
    simp [headerLine]
  rw [hsplit, List.getLast?_concat]

theorem tight_refLine {r : Ref} (h : WritableEnd r.target) : Tight (refLine r) := by
  obtain ⟨z, hz, hzc⟩ := getLast?_writtenName h.2.ne_nil
  refine tight_of_ends (a := 'R') (z := z) rfl ?_ (by decide) (isBlank_of_head hzc)
  have hsplit : refLine r = ['R', 'e', 'f', ':', ' '] ++
      (endLine r.source ++ ' ' :: ((signText r.cardinality).toList ++
        ' ' :: ((writtenName r.target.table).toList ++ ['.']))) ++ (writtenName r.target.column).toList := by
    simp [refLine, endLine]
  rw [hsplit, List.getLast?_append, hz]
  rfl

theorem trim_tableTexts {t : Table} (h : LegibleTable t) :
    ((tableTexts t).map String.toList).map trim = tableLines t := by
  have hc : ∀ c ∈ t.columns, trim (columnText c).toList = columnLine c := by
    intro c hc
    have := trim_pad (a := [' ', ' ']) (b := []) (by decide) (tight_columnLine (h.columns c hc)) (by simp)
    simpa [toList_columnText] using this
  have hb : trim "\x7d".toList = ['\x7d'] := by decide
  simp only [tableTexts, tableLines, List.map_append, List.map_cons, List.map_nil, List.map_map,
    toList_headerText, trim_eq_self (tight_headerLine t.name), hb]
  rw [List.map_congr_left (g := columnLine) (by simpa using hc)]

/-- The lines of a written document. -/
theorem lines_write {d : Diagram} (h : LegibleLines d) (hne : d.tables ≠ []) :
    (lines (write d).toList).map trim = [[]].intercalate (documentLines d) := by
  have hblocks : (documentTexts d).map (List.map trim ∘ List.map String.toList) = documentLines d := by
    rw [documentTexts, documentLines, List.map_append, List.map_map, List.map_map]
    refine congrArg₂ (· ++ ·) (List.map_congr_left fun t ht => trim_tableTexts (h.tables t ht)) ?_
    refine List.map_congr_left fun p hp => ?_
    have ht := tight_refLine (h.ends p hp).2
    simp [toList_refLineText, trim_eq_self ht]
  rw [write_eq d hne, lines_blocks (solid_documentTexts h), map_intercalate, List.map_map, hblocks]
  rfl

/-! ## Entries -/

/-- The block of a written table, whatever line its header stands on. -/
def writtenBlock (t : Table) : Block :=
  ⟨t.name, 0, true, t.columns.map fun c => ⟨keptColumn c, none⟩⟩

theorem step_blank (current : Option Block) {l : Line} (h : l.text = []) :
    step current l = ([], current) := by
  have hi : l.isIdle = true := by rw [Line.isIdle, h]
  rw [step.eq_def, if_pos hi]

theorem yields_blank : Yields [[]] [] := by
  intro ls hl rest
  obtain ⟨l, rfl, h⟩ := List.map_eq_singleton_iff.mp hl
  simp [entriesFrom, step_blank none h]

/-- A reference is read as it was written. -/
theorem yields_ref {r : Ref} (hs : WritableEnd r.source) (ht : WritableEnd r.target) :
    Yields [refLine r] [.ref 0 r] := yields_reference (ref?_refLine hs ht)

/-- A column is read as it was written. -/
theorem columnText_columnLine {c : Column} (h : Legible c.name) :
    ColumnText (columnLine c) ⟨keptColumn c, none⟩ := by
  obtain ⟨a, ha, hac⟩ := head?_columnLine h
  have hi : Counts (columnLine c) := isIdle_of_head (l := ⟨0, columnLine c⟩) ha
    (ne_of_head hac (by decide) (by decide)) (ne_of_head hac (by decide) (by decide))
  refine ⟨hi, header?_columnLine c, ?_, read_columnLine h⟩
  intro he
  rw [he] at ha
  cases ha
  revert hac
  decide

theorem yields_table {t : Table} (h : LegibleTable t) :
    Yields (tableLines t) [.table (writtenBlock t)] := by
  have hheader : ∀ x ∈ [headerLine t.name], Counts x := by
    intro x hx
    rw [List.mem_singleton.mp hx]
    exact isIdle_of_head (l := ⟨0, headerLine t.name⟩) (a := 'T') rfl (by decide) (by decide)
  have hcolumns : List.Forall₂ ColumnText (t.columns.map columnLine)
      (t.columns.map fun c => ⟨keptColumn c, none⟩) := by
    rw [List.forall₂_map_left_iff, List.forall₂_map_right_iff, List.forall₂_same]
    exact fun c hc => columnText_columnLine (h.columns c hc)
  exact ((opens_opening (.sameLine (header?_written h.name)) hheader).columns hcolumns).close

theorem yields_blocks {α : Type} {items : List α} {texts : α → List (List Char)} {es : α → List Entry}
    (h : ∀ i ∈ items, Yields (texts i) (es i)) :
    Yields ([[]].intercalate (items.map texts)) (items.flatMap es) := by
  induction items with
  | nil => exact yields_nil
  | cons i is ih =>
    have hi := h i List.mem_cons_self
    cases is with
    | nil => simpa using hi
    | cons j js =>
      have := (hi.append yields_blank).append (ih fun k hk => h k (List.mem_cons_of_mem i hk))
      simpa using this

/-- The references that are written for a diagram. -/
def writtenRefs (d : Diagram) : List Ref := (d.relationships.filterMap d.resolve).map refOf

/-- A written document gives its tables and then its references, and no fault. -/
theorem entries_write {d : Diagram} (h : LegibleLines d) (hne : d.tables ≠ []) :
    (entries (write d).toList).map Entry.unnumbered =
      (d.tables.map fun t => .table (writtenBlock t)) ++ (writtenRefs d).map (.ref 0) := by
  let items : List (List (List Char) × List Entry) :=
    (d.tables.map fun t => (tableLines t, [.table (writtenBlock t)])) ++
      (writtenRefs d).map fun r => ([refLine r], [.ref 0 r])
  have hy : ∀ i ∈ items, Yields i.1 i.2 := by
    intro i hi
    rcases List.mem_append.mp hi with hi | hi
    · obtain ⟨t, ht, rfl⟩ := List.mem_map.mp hi
      exact yields_table (h.tables t ht)
    · obtain ⟨r, hr, rfl⟩ := List.mem_map.mp hi
      obtain ⟨p, hp, rfl⟩ := List.mem_map.mp hr
      obtain ⟨hs, ht⟩ := h.ends p hp
      exact yields_ref hs ht
  have htexts : (numberedLines (write d).toList).map Line.text = [[]].intercalate (items.map Prod.fst) := by
    rw [map_text_numberedLines, lines_write h hne]
    simp [items, documentLines, writtenRefs, Function.comp_def]
  have := yields_blocks hy _ htexts []
  simpa [entries, entriesFrom, unclosed, items, List.flatMap_append, List.flatMap_map,
    ← List.map_eq_flatMap] using this

/-! ## The whole -/

/-- The table that DBML keeps. -/
def keptTable (t : Table) : Outline.Table := ⟨t.name, t.columns.map keptColumn⟩

theorem outline_writtenBlock (t : Table) : (writtenBlock t).outline = keptTable t := by
  simp [Block.outline, writtenBlock, keptTable, Function.comp_def]

section Parts

variable {d : Diagram} (h : LegibleLines d) (hne : d.tables ≠ [])

include h hne

theorem blocks_write :
    ((entries (write d).toList).filterMap Entry.block?).map (fun b => { b with line := 0 }) =
      d.tables.map writtenBlock := by
  rw [← blocks_unnumbered, entries_write h hne, List.filterMap_append,
    List.filterMap_map, List.filterMap_map]
  have hr : (writtenRefs d).filterMap (Entry.block? ∘ Entry.ref 0) = [] :=
    List.filterMap_eq_nil_iff.mpr fun r _ => rfl
  have ht : (Entry.block? ∘ fun t => Entry.table (writtenBlock t)) = some ∘ writtenBlock := rfl
  rw [hr, ht, List.append_nil, List.filterMap_eq_map]

theorem refs_write :
    ((entries (write d).toList).filterMap Entry.ref?).map Prod.snd = writtenRefs d := by
  have hz := refs_unnumbered (entries (write d).toList)
  rw [entries_write h hne, List.filterMap_append, List.filterMap_map, List.filterMap_map] at hz
  have ht : d.tables.filterMap (Entry.ref? ∘ fun t => Entry.table (writtenBlock t)) = [] :=
    List.filterMap_eq_nil_iff.mpr fun t _ => rfl
  have hr : Entry.ref? ∘ Entry.ref 0 = some ∘ fun r => (0, r) := rfl
  rw [ht, hr, List.nil_append, List.filterMap_eq_map] at hz
  have := congrArg (List.map Prod.snd) hz
  simpa [Function.comp_def] using this.symm

theorem faults_write : (entries (write d).toList).filterMap Entry.fault? = [] := by
  have hz := faults_unnumbered (entries (write d).toList)
  rw [entries_write h hne, List.filterMap_append, List.filterMap_map, List.filterMap_map] at hz
  have ht : d.tables.filterMap (Entry.fault? ∘ fun t => Entry.table (writtenBlock t)) = [] :=
    List.filterMap_eq_nil_iff.mpr fun t _ => rfl
  have hr : (writtenRefs d).filterMap (Entry.fault? ∘ Entry.ref 0) = [] :=
    List.filterMap_eq_nil_iff.mpr fun r _ => rfl
  rw [ht, hr] at hz
  exact List.map_eq_nil_iff.mp hz.symm

end Parts

/-- A column of one of the tables is found by the two names. -/
theorem place?_of_nodup {tables : List Outline.Table} (hn : Outline.DistinctTables tables)
    {t : Outline.Table} (ht : t ∈ tables) (hd : t.DistinctColumns) {c : Outline.Column}
    (hc : c ∈ t.columns) :
    ∃ p, place? tables ⟨t.name, c.name⟩ = some p ∧ Outline.columnAt? tables p = some (t, c) := by
  obtain ⟨i, hi⟩ := List.mem_iff_getElem?.mp ht
  obtain ⟨j, hj⟩ := List.mem_iff_getElem?.mp hc
  refine ⟨⟨i, j⟩, ?_, Outline.columnAt?_eq_some.mpr ⟨hi, hj⟩⟩
  rw [place?, Outline.tableNamed?_of_nodup hn hi]
  simp only [Option.bind_some, Outline.columnNamed?_of_nodup hd hj, Option.map_some]

/-- The link of a reference whose two ends are there. -/
theorem refLink_of_nodup {tables : List Outline.Table} (hn : Outline.DistinctTables tables)
    (hd : ∀ t ∈ tables, t.DistinctColumns) {k : Cardinality} {t u : Outline.Table} (ht : t ∈ tables)
    (hu : u ∈ tables) {c e : Outline.Column} (hc : c ∈ t.columns) (he : e ∈ u.columns) :
    ∃ l, refLink tables ⟨k, ⟨t.name, c.name⟩, ⟨u.name, e.name⟩⟩ = .ok l ∧ l.cardinality = k ∧
      Outline.columnAt? tables l.source = some (t, c) ∧ Outline.columnAt? tables l.target = some (u, e) := by
  obtain ⟨p, hp, hpc⟩ := place?_of_nodup hn ht (hd t ht) hc
  obtain ⟨q, hq, hqc⟩ := place?_of_nodup hn hu (hd u hu) he
  refine ⟨⟨k, p, q⟩, ?_, rfl, hpc, hqc⟩
  have hpt := hasTable_of_place? hp
  have hqt := hasTable_of_place? hq
  simp only at hpt hqt
  simp only [refLink, hpt, hqt, Bool.and_self, if_true, hp, hq]

/-- A block without references among its settings has no links of its own. -/
theorem blockLinks_eq_nil {tables : List Outline.Table} {i : Nat} {b : Block}
    (h : ∀ c ∈ b.columns, c.refersTo = none) : blockLinks tables i b = [] := by
  refine List.filterMap_eq_nil_iff.mpr fun l hl => ?_
  obtain ⟨j, hj, rfl⟩ := List.mem_mapIdx.mp hl
  rw [settingLink, h _ (List.getElem_mem hj)]
  rfl

section Draft

/-- The lines of a diagram are read as they were written, and its names tell its tables and columns apart. -/
structure Readable (d : Diagram) : Prop where
  lines : LegibleLines d
  distinctTables : (d.tables.map fun t => nameKey t.name).Nodup
  distinctColumns : ∀ t ∈ d.tables, (t.columns.map fun c => nameKey c.name).Nodup

theorem Expressible.readable {d : Diagram} (h : Expressible d) : Readable d :=
  ⟨legibleLines_of_writable h.writable, h.distinctTables, h.distinctColumns⟩

variable {d : Diagram} (h : Readable d)

include h

theorem distinctTables_kept : Outline.DistinctTables (d.tables.map keptTable) := by
  have := h.distinctTables
  simpa [Outline.DistinctTables, keptTable, Function.comp_def] using this

theorem distinctColumns_kept : ∀ t ∈ d.tables.map keptTable, t.DistinctColumns := by
  intro t ht
  obtain ⟨u, hu, rfl⟩ := List.mem_map.mp ht
  have := h.distinctColumns u hu
  simpa [Outline.Table.DistinctColumns, keptTable, keptColumn, Function.comp_def] using this

/-- Every reference that is written is a link between the names that it was written for. -/
theorem refLink_written {p : Resolved} (hp : p ∈ d.relationships.filterMap d.resolve) :
    ∃ l, refLink (d.tables.map keptTable) (refOf p) = .ok l ∧
      ∀ links, (Outline.mk (d.tables.map keptTable) links).named? l = some p.named := by
  obtain ⟨r, -, hr⟩ := List.mem_filterMap.mp hp
  obtain ⟨⟨hs, hsc⟩, ht, htc⟩ := Diagram.resolve_mem hr
  have mem {t : Table} (ht : t ∈ d.tables) : keptTable t ∈ d.tables.map keptTable :=
    List.mem_map_of_mem ht
  have memc {t : Table} {c : Column} (hc : c ∈ t.columns) : keptColumn c ∈ (keptTable t).columns :=
    List.mem_map_of_mem hc
  obtain ⟨l, hl, hk, hla, hlb⟩ := refLink_of_nodup (k := p.relationship.cardinality)
    (distinctTables_kept h) (distinctColumns_kept h) (mem hs) (mem ht) (memc hsc) (memc htc)
  refine ⟨l, hl, fun links => ?_⟩
  rw [Outline.named?, hla, hlb, hk]
  rfl

/-- The links of a written document. -/
def writtenLinks (d : Diagram) : List Outline.Link :=
  (d.relationships.filterMap d.resolve).filterMap fun p =>
    (refLink (d.tables.map keptTable) (refOf p)).toOption

theorem Readable.named?_writtenLinks :
    (writtenLinks d).map (Outline.mk (d.tables.map keptTable) (writtenLinks d)).named? =
      (d.relationships.filterMap d.named?).map some := by
  have hnamed : d.named? = fun r => (d.resolve r).map Resolved.named := rfl
  rw [hnamed, ← List.map_filterMap, List.map_map]
  refine map_filterMap_of_forall fun p hp => ?_
  obtain ⟨l, hl, hn⟩ := refLink_written h hp
  exact ⟨l, by rw [hl]; rfl, hn _⟩

theorem outlines_write (hne : d.tables ≠ []) :
    ((entries (write d).toList).filterMap Entry.block?).map Block.outline = d.tables.map keptTable := by
  have := congrArg (List.map Block.outline) (blocks_write h.lines hne)
  rw [List.map_map, List.map_map] at this
  exact this.trans (List.map_congr_left fun t _ => outline_writtenBlock t)

/-- No setting of a written column refers to another. -/
theorem settingLinks_write (hne : d.tables ≠ []) :
    (((entries (write d).toList).filterMap Entry.block?).mapIdx
      (blockLinks (d.tables.map keptTable))).flatten = [] := by
  refine List.flatten_eq_nil_iff.mpr fun l hl => ?_
  obtain ⟨i, hi, rfl⟩ := List.mem_mapIdx.mp hl
  refine blockLinks_eq_nil fun c hc => ?_
  have hb := List.mem_map_of_mem (f := fun b : Block => { b with line := 0 }) (List.getElem_mem hi)
  rw [blocks_write h.lines hne] at hb
  obtain ⟨t, -, ht⟩ := List.mem_map.mp hb
  have hcols : c ∈ (writtenBlock t).columns := by
    rw [ht]
    exact hc
  obtain ⟨k, -, rfl⟩ := List.mem_map.mp hcols
  rfl

/-- Every written reference leads somewhere. -/
theorem refLink_write (hne : d.tables ≠ []) : ∀ q ∈ (entries (write d).toList).filterMap Entry.ref?,
    ∃ l, refLink (d.tables.map keptTable) q.2 = .ok l := by
  intro q hq
  have hm : q.2 ∈ writtenRefs d := refs_write h.lines hne ▸ List.mem_map_of_mem hq
  obtain ⟨p, hp, he⟩ := List.mem_map.mp hm
  obtain ⟨l, hl, -⟩ := refLink_written h hp
  exact ⟨l, he ▸ hl⟩

/-- The draft of a written document: no complaint, the tables that DBML keeps, and the links. -/
theorem Readable.draftOf_write (hne : d.tables ≠ []) :
    (draftOf (write d).toList).outline = ⟨d.tables.map keptTable, writtenLinks d⟩ ∧
      (draftOf (write d).toList).diagnostics = [] := by
  have htables := outlines_write h hne
  refine ⟨?_, ?_⟩
  · have hlinks : ((entries (write d).toList).filterMap Entry.ref?).filterMap
        (fun q => (refLink (d.tables.map keptTable) q.2).toOption) = writtenLinks d := by
      have := congrArg (List.filterMap fun r => (refLink (d.tables.map keptTable) r).toOption)
        (refs_write h.lines hne)
      rw [List.filterMap_map, writtenRefs, List.filterMap_map] at this
      exact this
    rw [outline_draftOf htables, settingLinks_write h hne, hlinks, List.filterMap_nil, List.append_nil]
  · simp only [draftOf, htables, faults_write h.lines hne, List.nil_append, List.map_eq_nil_iff,
      List.filterMap_map]
    refine List.filterMap_eq_nil_iff.mpr fun q hq => ?_
    obtain ⟨l, hl⟩ := refLink_write h hne q hq
    simp [hl]

end Draft

section Expressible

variable {d : Diagram} (h : Expressible d)

include h

theorem named?_writtenLinks :
    (writtenLinks d).map (Outline.mk (d.tables.map keptTable) (writtenLinks d)).named? =
      (d.relationships.filterMap d.named?).map some :=
  h.readable.named?_writtenLinks

theorem draftOf_write (hne : d.tables ≠ []) :
    (draftOf (write d).toList).outline = ⟨d.tables.map keptTable, writtenLinks d⟩ ∧
      (draftOf (write d).toList).diagnostics = [] :=
  h.readable.draftOf_write hne

end Expressible

/-- A written document is not blank. -/
theorem isBlankText_write {d : Diagram} (hne : d.tables ≠ []) : isBlankText (write d).toList = false := by
  obtain ⟨t, ts, ht⟩ := List.exists_cons_of_ne_nil hne
  have hhead : ∃ u, (write d).toList = 'T' :: u := by
    rw [write_eq d hne, documentTexts, ht]
    cases hr : ts.map tableTexts ++ (d.relationships.filterMap d.resolve).map fun p => [refLineText p] <;>
      simp [hr, tableTexts, String.toList_intercalate]
  obtain ⟨u, hu⟩ := hhead
  rw [hu]
  rfl

/-- A diagram is read back from its document without a complaint, with the same tables and columns in the
same order up to the flags that DBML does not keep, and with the relationships that resolve, in order. -/
theorem read_write {s : Outline.Sheet} (hs : s.grid.columns ≠ 0) {d : Diagram} (h : Expressible d) :
    ∃ r, read s (write d) = .ok r ∧ r.diagnostics = [] ∧
      r.diagram.tables.map Table.outline = d.tables.map keptTable ∧
      r.diagram.relationships.map r.diagram.named? = (d.relationships.filterMap d.named?).map some := by
  by_cases hne : d.tables = []
  · have hw : write d = "" := by
      rw [write, hne]
      rfl
    have hnone : d.relationships.filterMap d.named? = [] := by
      refine List.filterMap_eq_nil_iff.mpr fun r _ => ?_
      cases hr : d.resolve r with
      | none => rw [Diagram.named?, hr, Option.map_none]
      | some p =>
        have := (Diagram.resolve_mem hr).1.1
        rw [hne] at this
        cases this
    refine ⟨{}, ?_, rfl, by rw [hne]; rfl, by rw [hnone]; rfl⟩
    have hdraft : draft "" = {} := rfl
    have hplace : (Outline.mk [] []).place s = .ok {} := if_neg (by simp)
    rw [hw, read, hdraft, Draft.reading, hplace]
  · obtain ⟨hout, hdiag⟩ := draftOf_write h hne
    have hdraft : draft (write d) = draftOf (write d).toList := by
      rw [draft, if_neg (by simp [isBlankText_write hne])]
    refine ⟨⟨(Outline.mk (d.tables.map keptTable) (writtenLinks d)).draw s, []⟩, ?_, rfl, ?_, ?_⟩
    · rw [read, hdraft, Draft.reading, hout, hdiag, Outline.place, if_neg (by simp [hs])]
    · exact Outline.outlines_draw
    · rw [← named?_writtenLinks h]
      exact Outline.namedLinks_draw (hout ▸ linked_draftOf _)

/-- Two tables whose names are no words, one of them like the header of a table, and a relationship. -/
def ledger : Diagram where
  tables :=
    [{ id := "t0", name := "Table x \x7b",
       columns := [{ id := "c0", name := "a [1]", type := .int,
                     constraints := { isPrimaryKey := true, isNullable := false, isUnique := true } }] },
     { id := "t1", name := "entries", columns := [{ id := "c1", name := "ref", type := .int }] }]
  relationships := [⟨"r0", .oneToMany, ⟨"t0", "c0"⟩, ⟨"t1", "c1"⟩⟩]

theorem read_write_ledger :
    Expressible ledger ∧ ∃ r, read {} (write ledger) = .ok r ∧ r.diagnostics = [] ∧
      r.diagram.tables.map Table.outline = ledger.tables.map keptTable ∧
      r.diagram.relationships.map r.diagram.named? =
        (ledger.relationships.filterMap ledger.named?).map some := by
  have writable {name : String} (h : name.toList ≠ [] ∧ '"' ∉ name.toList ∧
      ∀ c ∈ name.toList, isLineEnd c = false) : Writable name := ⟨h.1, h.2.1, h.2.2⟩
  have h : Expressible ledger := by
    refine ⟨?_, by decide +kernel, by decide +kernel⟩
    intro t ht
    simp only [ledger, List.mem_cons, List.not_mem_nil, or_false] at ht
    rcases ht with rfl | rfl
    · refine ⟨writable (by decide), fun c hc => ?_⟩
      obtain rfl := List.mem_singleton.mp hc
      exact ⟨writable (by decide), by decide⟩
    · refine ⟨writable (by decide), fun c hc => ?_⟩
      obtain rfl := List.mem_singleton.mp hc
      exact ⟨writable (by decide), by decide⟩
  exact ⟨h, read_write (by decide) h⟩

end Erd.Dbml
