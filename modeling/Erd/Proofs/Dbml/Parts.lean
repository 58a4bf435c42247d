import Erd.Proofs.Consistency
import Erd.Proofs.Dbml.Grammar

/-!
# Parts of documents

Each part of a document gives its entry whatever stands beside it: a reference its own, a block its table with
what its columns refer to. Lines that end within a block leave it open with the columns so far. So a document
without a fault can be taken apart at any of its lines, and the lines below go on as the grammar allows.

What a document is read as is told by its entries without the numbers of their lines, and what these are linked
to depends on nothing but the names of tables and columns.

**Results.**
* `exists_yields_document`, `Opens.close`: whole parts, and a block with the lines that open it and its columns.
* `document_below`, `Opens.below`: what stands below whole parts, and below the columns of a block.
* `linksIn_bare`, `named_bare`: links do not depend on the types and the flags of columns.
* `read_of_entries`: a reading, told by the entries of its document.
-/
namespace Erd.Dbml

open Text

/-! ## Entries of lines -/

/-- An entry without the number of its line. -/
def Entry.unnumbered : Entry → Entry
  | .table b => .table { b with line := 0 }
  | .ref _ r => .ref 0 r
  | .fault _ f => .fault 0 f

/-- What is picked from entries depends on line numbers only where it holds one itself. -/
theorem filterMap_unnumbered {α : Type} {f : Entry → Option α} {g : α → α}
    (h : ∀ e : Entry, f e.unnumbered = (f e).map g) (es : List Entry) :
    (es.map Entry.unnumbered).filterMap f = (es.filterMap f).map g := by
  rw [List.filterMap_map, List.map_filterMap]
  exact congrArg (List.filterMap · es) (funext h)

/-- Lines with these texts give these entries before whatever follows, and leave no block open. -/
def Yields (texts : List (List Char)) (es : List Entry) : Prop :=
  ∀ ls : List Line, ls.map Line.text = texts → ∀ rest,
    (entriesFrom none (ls ++ rest)).map Entry.unnumbered =
      es ++ (entriesFrom none rest).map Entry.unnumbered

theorem yields_nil : Yields [] [] := by
  intro ls hl rest
  rw [List.map_eq_nil_iff.mp hl]
  rfl

theorem Yields.append {s t : List (List Char)} {x y : List Entry} (hs : Yields s x) (ht : Yields t y) :
    Yields (s ++ t) (x ++ y) := by
  intro ls hl rest
  obtain ⟨ls₁, ls₂, rfl, h₁, h₂⟩ := List.map_eq_append_iff.mp hl
  rw [List.append_assoc, hs ls₁ h₁, ht ls₂ h₂, List.append_assoc]

/-! ## Lines that count -/

theorem isIdle_of_head {l : Line} {a : Char} (h : l.text.head? = some a)
    (ha : a ≠ '/') (hb : a ≠ '-') : l.isIdle = false := by
  obtain ⟨n, text⟩ := l
  cases text with
  | nil => cases h
  | cons b text =>
    cases h
    unfold Line.isIdle
    split
    · next h => cases h
    · next h => exact absurd (List.cons.inj h).1 ha
    · next h => exact absurd (List.cons.inj h).1 hb
    · rfl

/-- The line counts. -/
def Counts (text : List Char) : Prop := (⟨0, text⟩ : Line).isIdle = false

theorem Counts.isIdle {l : Line} (h : Counts l.text) : l.isIdle = false := h

/-- The lines that count, without the blanks around them. -/
def counted (ls : List (List Char)) : List (List Char) := (ls.map trim).filter fun t => !(⟨0, t⟩ : Line).isIdle

theorem counted_append (ls ms : List (List Char)) : counted (ls ++ ms) = counted ls ++ counted ms := by
  rw [counted, List.map_append, List.filter_append]
  rfl

theorem counted_cons {l : List Char} (h : Counts (trim l)) (ls : List (List Char)) :
    counted (l :: ls) = trim l :: counted ls := by
  rw [counted, List.map_cons, List.filter_cons_of_pos (by simpa [Counts] using h)]
  rfl

theorem map_text_numberedLines (s : List Char) : (numberedLines s).map Line.text = (lines s).map trim := by
  refine List.ext_getElem (by simp [numberedLines]) fun k hk hk' => ?_
  simp [numberedLines]

theorem significantTexts_eq (document : String) : significantTexts document = counted (lines document.toList) := by
  rw [significantTexts, significantLines, counted, ← map_text_numberedLines, List.filter_map]
  rfl

theorem counts_of_mem_counted {ls : List (List Char)} {text : List Char} (h : text ∈ counted ls) : Counts text := by
  simpa [Counts] using (List.mem_filter.mp h).2

/-! ## Whole parts -/

/-- No reference starts like a comment. -/
theorem counts_of_ref? {text : List Char} {r : Ref} (h : ref? text = some r) : Counts text := by
  cases hk : keyword "ref" text with
  | none => simp [ref?, refText?, hk] at h
  | some rest =>
    obtain ⟨taken, rfl, htaken⟩ := dropKeyword_eq_some hk
    obtain ⟨a, s, rfl, ha, -⟩ := List.map_eq_cons_iff.mp htaken
    refine isIdle_of_head (l := ⟨0, a :: s ++ rest⟩) rfl ?_ ?_
    · rintro rfl
      exact absurd ha (by decide)
    · rintro rfl
      exact absurd ha (by decide)

/-- A reference gives its entry. -/
theorem yields_reference {text : List Char} {r : Ref} (hr : ref? text = some r) : Yields [text] [.ref 0 r] := by
  intro ls hl rest
  obtain ⟨l, rfl, rfl⟩ := List.map_eq_singleton_iff.mp hl
  rw [List.singleton_append, entriesFrom_cons, step_outside (counts_of_ref? hr).isIdle (header?_of_ref? hr),
    outsideEntry, hr]
  rfl

/-- The line of a column, with what the column refers to. -/
structure ColumnText (text : List Char) (c : ColumnLine) : Prop where
  counts : Counts text
  notHeader : header? text = none
  notClose : text ≠ ['\x7d']
  read : ColumnLine.read text = .ok c

theorem exists_columnText {text : List Char} {c : Outline.Column} (hi : Counts text) (h : IsColumn text c) :
    ∃ l, ColumnText text l ∧ l.column = c := by
  obtain ⟨hh, hc, l, hl, hlc⟩ := isColumn_iff.mp h
  exact ⟨l, ⟨hi, hh, hc, hl⟩, hlc⟩

/-- The lines of columns, each of which counts, are read as columns. -/
theorem exists_columnTexts {body : List (List Char)} {columns : List Outline.Column} (hi : ∀ t ∈ body, Counts t)
    (h : List.Forall₂ IsColumn body columns) :
    ∃ cs, List.Forall₂ ColumnText body cs ∧ cs.map ColumnLine.column = columns := by
  induction h with
  | nil => exact ⟨[], .nil, rfl⟩
  | cons hc _ ih =>
    obtain ⟨ht, hb⟩ := List.forall_mem_cons.mp hi
    obtain ⟨l, hl, rfl⟩ := exists_columnText ht hc
    obtain ⟨cs, hcs, rfl⟩ := ih hb
    exact ⟨l :: cs, .cons hl hcs, rfl⟩

/-- The columns of an open block are added to it one by one. -/
theorem entriesFrom_body {cs : List ColumnLine} {ls : List Line}
    (h : List.Forall₂ ColumnText (ls.map Line.text) cs) {b : Block} (hb : b.isOpen = true) (rest : List Line) :
    entriesFrom (some b) (ls ++ rest) = entriesFrom (some { b with columns := b.columns ++ cs }) rest := by
  induction ls generalizing cs b with
  | nil =>
    cases h
    simp
  | cons l ls ih =>
    obtain ⟨c, cs, hc, hcs, rfl⟩ := List.forall₂_cons_left_iff.mp h
    rw [List.cons_append, entriesFrom_cons, step_inside hc.counts.isIdle hb hc.notHeader, if_neg hc.notClose]
    simp only [hc.read, List.nil_append]
    rw [ih hcs (b := b.add c) hb]
    simp [Block.add]

/-- Lines with these texts give these entries, and then the block of a table is open with these columns. -/
def Opens (texts : List (List Char)) (es : List Entry) (name : String) (cs : List ColumnLine) : Prop :=
  ∀ ls : List Line, ls.map Line.text = texts → ∀ rest, ∃ n,
    (entriesFrom none (ls ++ rest)).map Entry.unnumbered =
      es ++ (entriesFrom (some ⟨name, n, true, cs⟩) rest).map Entry.unnumbered

/-- The lines that open a block leave it open. -/
theorem opens_opening {opening : List (List Char)} {name : String} (h : Opening opening name)
    (hi : ∀ t ∈ opening, Counts t) : Opens opening [] name [] := by
  intro ls hl rest
  cases h with
  | sameLine hh =>
    obtain ⟨l, rfl, rfl⟩ := List.map_eq_singleton_iff.mp hl
    refine ⟨l.number, ?_⟩
    rw [List.singleton_append, entriesFrom_cons, step_of_header (hi _ List.mem_cons_self).isIdle hh]
    rfl
  | nextLine hh =>
    obtain ⟨l, ls, rfl, rfl, hls⟩ := List.map_eq_cons_iff.mp hl
    obtain ⟨m, rfl, hm⟩ := List.map_eq_singleton_iff.mp hls
    have hmi : m.isIdle = false := isIdle_of_head (a := '\x7b') (by rw [hm]; rfl) (by decide) (by decide)
    refine ⟨l.number, ?_⟩
    rw [List.cons_append, entriesFrom_cons, step_of_header (hi _ List.mem_cons_self).isIdle hh,
      List.singleton_append, entriesFrom_cons, step_waiting hmi rfl (by rw [hm]; rfl), if_pos hm]
    rfl

theorem Yields.opens {whole texts : List (List Char)} {left es : List Entry} {name : String} {cs : List ColumnLine}
    (hw : Yields whole left) (h : Opens texts es name cs) : Opens (whole ++ texts) (left ++ es) name cs := by
  intro ls hl rest
  obtain ⟨head, tail, rfl, hhead, htail⟩ := List.map_eq_append_iff.mp hl
  obtain ⟨n, hn⟩ := h tail htail rest
  refine ⟨n, ?_⟩
  rw [List.append_assoc, hw head hhead, hn, List.append_assoc]

namespace Opens

variable {texts : List (List Char)} {es : List Entry} {name : String} {cs : List ColumnLine}
  (h : Opens texts es name cs)

include h

/-- Columns are added to the open block. -/
theorem columns {body : List (List Char)} {more : List ColumnLine} (hb : List.Forall₂ ColumnText body more) :
    Opens (texts ++ body) es name (cs ++ more) := by
  intro ls hl rest
  obtain ⟨head, tail, rfl, hhead, rfl⟩ := List.map_eq_append_iff.mp hl
  obtain ⟨n, hn⟩ := h head hhead (tail ++ rest)
  refine ⟨n, ?_⟩
  rw [List.append_assoc, hn, entriesFrom_body hb rfl]

/-- The closing brace gives the table of the open block. -/
theorem close : Yields (texts ++ [['\x7d']]) (es ++ [.table ⟨name, 0, true, cs⟩]) := by
  intro ls hl rest
  obtain ⟨head, tail, rfl, hhead, htail⟩ := List.map_eq_append_iff.mp hl
  obtain ⟨brace, rfl, hbrace⟩ := List.map_eq_singleton_iff.mp htail
  obtain ⟨n, hn⟩ := h head hhead ([brace] ++ rest)
  have hi : brace.isIdle = false := isIdle_of_head (a := '\x7d') (by rw [hbrace]; rfl) (by decide) (by decide)
  rw [List.append_assoc, hn, List.singleton_append, entriesFrom_cons, step_inside hi rfl (by rw [hbrace]; rfl),
    if_pos hbrace, List.append_assoc]
  rfl

end Opens

/-- The lines of a document give entries whatever stands around them. -/
theorem exists_yields_document {texts : List (List Char)} {items : List Item} (h : Document texts items)
    (hi : ∀ t ∈ texts, Counts t) : ∃ es, Yields texts es := by
  induction h with
  | nil => exact ⟨[], yields_nil⟩
  | ref hr _ ih =>
    obtain ⟨es, hes⟩ := ih (List.forall_mem_cons.mp hi).2
    exact ⟨_, (yields_reference hr).append hes⟩
  | @block opening body texts name columns items ho hc _ ih =>
    simp only [List.forall_mem_append, List.forall_mem_cons] at hi
    obtain ⟨cs, hcs, -⟩ := exists_columnTexts hi.2.1 hc
    obtain ⟨es, hes⟩ := ih hi.2.2.2
    have := ((opens_opening ho hi.1).columns hcs).close.append hes
    simp only [List.append_assoc, List.singleton_append] at this
    exact ⟨_, this⟩

/-- The entries of a document are those that its lines yield. -/
theorem entries_of_yields {document : String} {es : List Entry} (h : Yields (significantTexts document) es) :
    (entries document.toList).map Entry.unnumbered = es := by
  have := h (significantLines document.toList) rfl []
  simpa [entries_eq, entriesFrom, unclosed] using this

/-! ## What stands below -/

theorem faults_unnumbered (es : List Entry) : (es.map Entry.unnumbered).filterMap Entry.fault? =
    (es.filterMap Entry.fault?).map fun q => (0, q.2) :=
  filterMap_unnumbered (fun e => by cases e <;> rfl) es

section Below

variable {document : String} (hf : (entries document.toList).filterMap Entry.fault? = []) {es : List Entry}

include hf

/-- Where the lines of a document without a fault are cut, the grammar allows those below. -/
theorem follows_below {current : Option Block} {ls rest : List Line}
    (hl : significantLines document.toList = ls ++ rest)
    (he : (entriesFrom none (ls ++ rest)).map Entry.unnumbered =
      es ++ (entriesFrom current rest).map Entry.unnumbered) :
    ∃ items, Follows current (rest.map Line.text) items := by
  have hnone : ((entriesFrom none (ls ++ rest)).map Entry.unnumbered).filterMap Entry.fault? = [] := by
    rw [faults_unnumbered, ← hl, ← entries_eq, hf]
    rfl
  rw [he, List.filterMap_append, List.append_eq_nil_iff, faults_unnumbered, List.map_eq_nil_iff] at hnone
  obtain ⟨items, hi⟩ := no_fault_iff.mp hnone.2
  refine ⟨items, (entriesFrom_iff (fun l h => ?_) current).mp hi⟩
  exact isIdle_significantLines document.toList l (hl ▸ List.mem_append_right ls h)

variable {front back : List (List Char)} (hd : significantTexts document = front ++ back)

include hd

/-- Below whole parts there are whole parts. -/
theorem document_below (h : Yields front es) : ∃ items, Document back items := by
  obtain ⟨ls, rest, hl, hfront, rfl⟩ := List.map_eq_append_iff.mp hd
  change ∃ items, Follows none (rest.map Line.text) items
  exact follows_below hf hl (h ls hfront rest)

/-- Below the columns of a block there are columns, the brace that closes the block, and whole parts. -/
theorem Opens.below {name : String} {cs : List ColumnLine} (h : Opens front es name cs) :
    ∃ body columns after items, back = body ++ ['\x7d'] :: after ∧ List.Forall₂ IsColumn body columns ∧
      Document after items := by
  obtain ⟨ls, rest, hl, hfront, rfl⟩ := List.map_eq_append_iff.mp hd
  obtain ⟨n, hn⟩ := h ls hfront rest
  obtain ⟨items, hi⟩ := follows_below hf hl hn
  obtain ⟨body, columns, after, items', hback, hcolumns, hafter, -⟩ := (follows_open rfl).mp hi
  exact ⟨body, columns, after, items', hback, hcolumns, hafter⟩

end Below

/-! ## Names alone -/

/-- The table with nothing but its names. -/
def bare (t : Outline.Table) : Outline.Table := ⟨t.name, t.columns.map fun c => ⟨c.name, .int, {}⟩⟩

theorem tableNamed?_bare (tables : List Outline.Table) (name : String) :
    Outline.tableNamed? (tables.map bare) name = (Outline.tableNamed? tables name).map (Prod.map id bare) :=
  Outline.tableNamed?_map (f := bare) (fun _ => rfl) tables

theorem columnNamed?_bare (t : Outline.Table) (name : String) :
    (bare t).columnNamed? name = t.columnNamed? name := by
  rw [Outline.Table.columnNamed?, bare, List.findIdx?_map]
  rfl

/-- A place is found by names alone. -/
theorem place?_bare (tables : List Outline.Table) (e : ColumnName) :
    place? (tables.map bare) e = place? tables e := by
  rw [place?, place?, tableNamed?_bare]
  cases Outline.tableNamed? tables e.table with
  | none => rfl
  | some p => simp [columnNamed?_bare]

theorem hasTable_bare (tables : List Outline.Table) (name : String) :
    hasTable (tables.map bare) name = hasTable tables name := by
  rw [hasTable, hasTable, tableNamed?_bare, Option.isSome_map]

theorem refLink_bare (tables : List Outline.Table) (r : Ref) : refLink (tables.map bare) r = refLink tables r := by
  rw [refLink, refLink, hasTable_bare, hasTable_bare, place?_bare, place?_bare]

theorem blockLinks_bare (tables : List Outline.Table) : blockLinks (tables.map bare) = blockLinks tables := by
  funext i b
  have hlink : settingLink (tables.map bare) = settingLink tables := by
    funext owner here c
    simp only [settingLink, place?_bare]
  rw [blockLinks, blockLinks, hlink]

/-- The names at the ends of a link between tables. -/
def named (tables : List Outline.Table) (l : Outline.Link) : Option NamedLink := (Outline.mk tables []).named? l

theorem columnAt?_bare (tables : List Outline.Table) (p : Outline.Place) :
    Outline.columnAt? (tables.map bare) p =
      (Outline.columnAt? tables p).map fun q => (bare q.1, ⟨q.2.name, .int, {}⟩) := by
  rw [Outline.columnAt?, Outline.columnAt?, List.getElem?_map]
  cases tables[p.table]? with
  | none => rfl
  | some t =>
    simp only [Option.map_some, Option.bind_some, bare, List.getElem?_map, Option.map_map]
    rfl

theorem named_bare (tables : List Outline.Table) (l : Outline.Link) :
    named (tables.map bare) l = named tables l := by
  simp only [named, Outline.named?, columnAt?_bare]
  cases Outline.columnAt? tables l.source with
  | none => rfl
  | some a => cases Outline.columnAt? tables l.target <;> rfl

/-! ## What entries are read as -/

/-- The tables of entries. -/
def tablesIn (es : List Entry) : List Outline.Table := (es.filterMap Entry.block?).map Block.outline

/-- The links of entries: those of their references, and then those of the settings of their columns. -/
def linksIn (tables : List Outline.Table) (es : List Entry) : List Outline.Link :=
  (es.filterMap Entry.ref?).filterMap (fun q => (refLink tables q.2).toOption) ++
    ((es.filterMap Entry.block?).mapIdx (blockLinks tables)).flatten.filterMap Except.toOption

/-- No entry is a fault, and every reference leads somewhere. -/
structure Sound (tables : List Outline.Table) (es : List Entry) : Prop where
  faultless : es.filterMap Entry.fault? = []
  linked : ∀ q ∈ es.filterMap Entry.ref?, ∃ l, refLink tables q.2 = .ok l

/-- Links do not depend on the types and the flags of columns. -/
theorem linksIn_bare (tables : List Outline.Table) (es : List Entry) :
    linksIn (tables.map bare) es = linksIn tables es := by
  simp only [linksIn, refLink_bare, blockLinks_bare]

/-- The outline of a document has the links of its references and then those of its settings. -/
theorem outline_draftOf {s : List Char} {tables : List Outline.Table}
    (ht : ((entries s).filterMap Entry.block?).map Block.outline = tables) :
    (draftOf s).outline = ⟨tables,
      ((entries s).filterMap Entry.ref?).filterMap (fun q => (refLink tables q.2).toOption) ++
        (((entries s).filterMap Entry.block?).mapIdx (blockLinks tables)).flatten.filterMap
          Except.toOption⟩ := by
  subst ht
  exact congrArg (fun links => Outline.mk _ (links ++ _)) List.filterMap_map

section Unnumbered

variable (es : List Entry)

theorem blocks_unnumbered : (es.map Entry.unnumbered).filterMap Entry.block? =
    (es.filterMap Entry.block?).map fun b => { b with line := 0 } :=
  filterMap_unnumbered (fun e => by cases e <;> rfl) es

theorem refs_unnumbered : (es.map Entry.unnumbered).filterMap Entry.ref? =
    (es.filterMap Entry.ref?).map fun q => (0, q.2) :=
  filterMap_unnumbered (fun e => by cases e <;> rfl) es

theorem tablesIn_unnumbered : tablesIn (es.map Entry.unnumbered) = tablesIn es := by
  rw [tablesIn, blocks_unnumbered, List.map_map]
  rfl

theorem linksIn_unnumbered (tables : List Outline.Table) :
    linksIn tables (es.map Entry.unnumbered) = linksIn tables es := by
  have hblocks (bs : List Block) :
      (bs.map fun b => { b with line := 0 }).mapIdx (blockLinks tables) = bs.mapIdx (blockLinks tables) := by
    refine List.ext_getElem (by simp) fun i hi hi' => ?_
    rw [List.getElem_mapIdx, List.getElem_mapIdx, List.getElem_map]
    rfl
  rw [linksIn, blocks_unnumbered, hblocks, refs_unnumbered, List.filterMap_map]
  rfl

theorem sound_unnumbered (tables : List Outline.Table) :
    Sound tables (es.map Entry.unnumbered) ↔ Sound tables es := by
  constructor
  · rintro ⟨hf, hl⟩
    rw [faults_unnumbered, List.map_eq_nil_iff] at hf
    rw [refs_unnumbered, List.forall_mem_map] at hl
    exact ⟨hf, hl⟩
  · rintro ⟨hf, hl⟩
    refine ⟨?_, ?_⟩
    · rw [faults_unnumbered, hf]
      rfl
    · rw [refs_unnumbered, List.forall_mem_map]
      exact hl

end Unnumbered

theorem faultsOf_eq_nil (s : List Char) : faultsOf s = [] ↔ Sound (tablesIn (entries s)) (entries s) := by
  have hlinked : (refsOf s).filterMap (refFault? (tablesOf s)) = [] ↔
      ∀ q ∈ refsOf s, ∃ l, refLink (tablesOf s) q.2 = .ok l := by
    rw [List.filterMap_eq_nil_iff]
    exact forall₂_congr fun q _ => refFault?_eq_none_iff
  rw [faultsOf, List.append_eq_nil_iff, hlinked]
  exact ⟨fun h => ⟨h.1, h.2⟩, fun h => ⟨h.faultless, h.linked⟩⟩

/-- A reading, told by the entries of its document without their lines. -/
theorem read_of_entries {s : Outline.Sheet} (hs : s.grid.columns ≠ 0) (document : String) {es : List Entry}
    (he : (entries document.toList).map Entry.unnumbered = es) :
    ∃ r, read s document = .ok r ∧ (r.diagnostics = [] ↔ Sound (tablesIn es) es) ∧
      r.diagram.tables.map Table.outline = tablesIn es ∧
        r.diagram.relationships.map r.diagram.named? = (linksIn (tablesIn es) es).map (named (tablesIn es)) := by
  have htables : tablesIn es = tablesIn (entries document.toList) := he ▸ tablesIn_unnumbered _
  refine ⟨_, read_eq hs document, ?_, ?_, ?_⟩
  · rw [diagnostics_draft, List.map_eq_nil_iff, htables, ← he, sound_unnumbered, faultsOf_eq_nil]
  · rw [Outline.outlines_draw, tables_draft, htables]
    rfl
  · rw [Outline.namedLinks_draw (linked_draft document), outline_draft, outline_draftOf rfl, htables, ← he,
      linksIn_unnumbered]
    rfl

end Erd.Dbml
