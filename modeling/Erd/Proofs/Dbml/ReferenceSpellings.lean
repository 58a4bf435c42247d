import Erd.Proofs.Dbml.RoundTrip
import Erd.Proofs.Dbml.SettingReference
import Mathlib.Data.List.Perm.Basic

/-!
# Three spellings of one reference

That a column refers to another can be said on a line of its own, from either side, or among the settings of the
column. All three say the same.

In a document without a fault a line below whole parts adds its own entry to the others, and a setting changes
the one entry of its block. A setting changes the flags of its column too, but no name, and links are made of
names. So the links are the old ones and one more, which is the same for the three.

**Results.**
* `LineAdded.entries`, `SettingGiven.entries`: what a spelling does to the entries of a document.
* `linksIn_ref`, `linksIn_withBlock`: one reference or one setting more is one link more.
* `read_refers`: each of the three spellings adds one relationship, the same one, and no diagnostic.
-/
namespace Erd.Dbml

open Text

/-! ## One reference more -/

section Reference

variable {left right : List Entry} {n : Nat} {r : Ref}

theorem tablesIn_ref : tablesIn (left ++ .ref n r :: right) = tablesIn (left ++ right) := by
  simp [tablesIn, List.filterMap_cons, Entry.block?]

variable {tables : List Outline.Table} {l : Outline.Link} (hl : refLink tables r = .ok l)

include hl

theorem Sound.ref (h : Sound tables (left ++ right)) : Sound tables (left ++ .ref n r :: right) := by
  obtain ⟨hf, hr⟩ := h
  rw [List.filterMap_append] at hf hr
  refine ⟨?_, ?_⟩
  · rw [List.filterMap_append]
    exact hf
  · rw [List.filterMap_append]
    intro q hq
    rcases List.mem_append.mp hq with hq | hq
    · exact hr q (List.mem_append_left _ hq)
    · rcases List.mem_cons.mp hq with rfl | hq
      · exact ⟨l, hl⟩
      · exact hr q (List.mem_append_right _ hq)

/-- A reference between two entries adds its link to theirs. -/
theorem linksIn_ref : (linksIn tables (left ++ .ref n r :: right)).Perm (l :: linksIn tables (left ++ right)) := by
  have hrefs :
      ((left ++ .ref n r :: right).filterMap Entry.ref?).filterMap (fun q => (refLink tables q.2).toOption) =
      (left.filterMap Entry.ref?).filterMap (fun q => (refLink tables q.2).toOption) ++
        l :: (right.filterMap Entry.ref?).filterMap (fun q => (refLink tables q.2).toOption) := by
    simp [Entry.ref?, hl, Except.toOption]
  have hblocks : (left ++ .ref n r :: right).filterMap Entry.block? = (left ++ right).filterMap Entry.block? := by
    simp [List.filterMap_cons, Entry.block?]
  rw [linksIn, linksIn, hrefs, hblocks]
  simp only [List.filterMap_append]
  exact List.perm_middle.append_right _

end Reference

/-! ## One setting more -/

section Setting

variable {left right : List Entry} {name : String} {before after : List ColumnLine} {x x' : Outline.Column}
  {e : ColumnName}

/-- The entries with the table of a block among them. -/
def withBlock (left right : List Entry) (name : String) (columns : List ColumnLine) : List Entry :=
  left ++ .table ⟨name, 0, true, columns⟩ :: right

theorem blocks_withBlock (columns : List ColumnLine) : (withBlock left right name columns).filterMap Entry.block? =
    left.filterMap Entry.block? ++ ⟨name, 0, true, columns⟩ :: right.filterMap Entry.block? := by
  simp [withBlock, Entry.block?]

theorem refs_withBlock (columns : List ColumnLine) : (withBlock left right name columns).filterMap Entry.ref? =
    left.filterMap Entry.ref? ++ right.filterMap Entry.ref? := by
  simp [withBlock, List.filterMap_cons, Entry.ref?]

theorem faults_withBlock (columns : List ColumnLine) : (withBlock left right name columns).filterMap Entry.fault? =
    left.filterMap Entry.fault? ++ right.filterMap Entry.fault? := by
  simp [withBlock, List.filterMap_cons, Entry.fault?]

theorem tablesIn_withBlock (columns : List ColumnLine) : tablesIn (withBlock left right name columns) =
    tablesIn left ++ ⟨name, columns.map ColumnLine.column⟩ :: tablesIn right := by
  rw [tablesIn, blocks_withBlock, List.map_append, List.map_cons]
  rfl

/-- A setting leaves the names as they are. -/
theorem bare_withBlock (hx : x'.name = x.name) :
    (tablesIn (withBlock left right name (before ++ ⟨x', some e⟩ :: after))).map bare =
      (tablesIn (withBlock left right name (before ++ ⟨x, none⟩ :: after))).map bare := by
  simp [tablesIn_withBlock, bare, hx]

/-- A block links the column of a setting to the column that it refers to. -/
theorem blockLinks_setting {tables : List Outline.Table} {p : Outline.Place} (hp : place? tables e = some p)
    (i n : Nat) (o : Bool) :
    ((blockLinks tables i ⟨name, n, o, before ++ ⟨x', some e⟩ :: after⟩).filterMap Except.toOption).Perm
      (⟨.oneToMany, p, ⟨i, before.length⟩⟩ ::
        (blockLinks tables i ⟨name, n, o, before ++ ⟨x, none⟩ :: after⟩).filterMap Except.toOption) := by
  simp only [blockLinks, List.mapIdx_append, List.mapIdx_cons, List.filterMap_append, List.filterMap_cons,
    settingLink, Option.map_some, Option.map_none, hp, id_eq, Except.toOption, Nat.zero_add]
  exact List.perm_middle

theorem linksIn_withBlock {tables : List Outline.Table} {p : Outline.Place} (hp : place? tables e = some p) :
    (linksIn tables (withBlock left right name (before ++ ⟨x', some e⟩ :: after))).Perm
      (⟨.oneToMany, p, ⟨(tablesIn left).length, before.length⟩⟩ ::
        linksIn tables (withBlock left right name (before ++ ⟨x, none⟩ :: after))) := by
  have hlength : (left.filterMap Entry.block?).length = (tablesIn left).length := by simp [tablesIn]
  simp only [linksIn, refs_withBlock, blocks_withBlock, List.mapIdx_append, List.mapIdx_cons, List.flatten_append,
    List.flatten_cons, List.filterMap_append, Nat.zero_add, hlength]
  refine .trans (.append_left _ (.append_left _ ((blockLinks_setting (x := x) hp _ _ _).append_right _))) ?_
  rw [List.cons_append]
  exact .trans (.append_left _ List.perm_middle) List.perm_middle

end Setting

/-! ## Spellings -/

/-- The line of a reference from the column that refers. -/
def greaterLine (child parent : ColumnName) : List Char :=
  ['R', 'e', 'f', ':', ' '] ++ (endLine child ++ [' ', '>', ' '] ++ endLine parent)

theorem ref?_greaterLine {child parent : ColumnName} (hc : WritableEnd child) (hp : WritableEnd parent) :
    ref? (greaterLine child parent) = some ⟨.oneToMany, parent, child⟩ := by
  have hr : refText? (greaterLine child parent) =
      some (' ' :: (endLine child ++ [' ', '>', ' '] ++ endLine parent)) := rfl
  have hsplit : endLine child ++ [' ', '>', ' '] ++ endLine parent =
      endLine child ++ ' ' :: '>' :: ' ' :: endLine parent := by simp
  have hstart := trimStart_endLine hc (' ' :: '>' :: ' ' :: endLine parent)
  have hblank : ∀ a ∈ (' ' :: '>' :: ' ' :: endLine parent).head?, isWord a = false := by
    intro a ha
    cases ha
    rfl
  have hleft := columnName?_written hc hblank
  have hend := trimStart_endLine hp []
  have hright : columnName? (endLine parent ++ []) = some (parent, []) := columnName?_written hp (by simp)
  rw [List.append_nil] at hend hright
  have hsign : sign? (trimStart (' ' :: '>' :: ' ' :: endLine parent)) =
      some (.greater, ' ' :: endLine parent) := rfl
  rw [ref?, hr, hsplit, Option.map_some, hstart, Option.bind_some, hleft]
  simp only [hsign, hend, hright]
  rfl

/-- A line with this text is put below whole parts of a document. -/
inductive LineAdded (text : List Char) (document document' : String) : Prop
  | below {above rest : List (List Char)} {line : List Char} {items : List Item} :
    lines document.toList = above ++ rest → lines document'.toList = above ++ line :: rest → trim line = text →
    Document (counted above) items → LineAdded text document document'

/-- A column of a block, whose settings refer to none, is given a setting. -/
inductive SettingGiven (setting : List Char) (column : ColumnName) (document document' : String) : Prop
  | within {above rest whole opening body : List (List Char)} {line line' : List Char} {items : List Item}
    {columns : List Outline.Column} {x : Outline.Column} :
    lines document.toList = above ++ line :: rest → lines document'.toList = above ++ line' :: rest →
    counted above = whole ++ (opening ++ body) → Document whole items → Opening opening column.table →
    List.Forall₂ IsColumn body columns → ColumnText (trim line) ⟨x, none⟩ → x.name = column.column →
    Given setting (trim line) (trim line') → SettingGiven setting column document document'

/-- The second document says what the first one says, and that the column `child` refers to the column
`parent`. -/
inductive Refers (parent child : ColumnName) (document document' : String) : Prop
  | less : LineAdded (refLine ⟨.oneToMany, parent, child⟩) document document' →
    Refers parent child document document'
  | greater : LineAdded (greaterLine child parent) document document' → Refers parent child document document'
  | setting : SettingGiven (refSetting parent) child document document' → Refers parent child document document'

section Edits

variable {document document' : String} (hf : (entries document.toList).filterMap Entry.fault? = [])

include hf

/-- A line that is read as a reference, below parts of a document, gives its entry among theirs. -/
theorem LineAdded.entries {text : List Char} (h : LineAdded text document document') {r : Ref}
    (hr : ref? text = some r) :
    ∃ left right, (entries document.toList).map Entry.unnumbered = left ++ right ∧
      (entries document'.toList).map Entry.unnumbered = left ++ .ref 0 r :: right := by
  obtain ⟨hd, hd', rfl, hwhole⟩ := h
  obtain ⟨left, hleft⟩ := exists_yields_document hwhole fun t => counts_of_mem_counted
  have htexts := significantTexts_eq document
  rw [hd, counted_append] at htexts
  obtain ⟨items, hrest⟩ := document_below hf htexts hleft
  obtain ⟨right, hright⟩ := exists_yields_document hrest fun t => counts_of_mem_counted
  refine ⟨left, right, entries_of_yields ?_, entries_of_yields ?_⟩
  · rw [htexts]
    exact hleft.append hright
  · rw [significantTexts_eq, hd', counted_append, counted_cons (counts_of_ref? hr)]
    exact hleft.append ((yields_reference hr).append hright)

/-- A column line that is given a reference changes the one entry of its block. -/
theorem SettingGiven.entries {parent child : ColumnName}
    (h : SettingGiven (refSetting parent) child document document') (hp : PortableEnd parent) :
    ∃ left right before after x x', x.name = child.column ∧ x'.name = x.name ∧
      (entries document.toList).map Entry.unnumbered =
        withBlock left right child.table (before ++ ⟨x, none⟩ :: after) ∧
      (entries document'.toList).map Entry.unnumbered =
        withBlock left right child.table (before ++ ⟨x', some parent.small⟩ :: after) := by
  obtain @⟨above, rest, whole, opening, body, line, line', items, columns, x, hd, hd', habove, hwhole, ho, hbody,
    hx, hname, hgiven⟩ := h
  have hcounts : ∀ t ∈ whole ++ (opening ++ body), Counts t := fun t ht =>
    counts_of_mem_counted (habove.symm ▸ ht)
  simp only [List.forall_mem_append] at hcounts
  obtain ⟨left, hleft⟩ := exists_yields_document hwhole hcounts.1
  obtain ⟨before, hbefore, -⟩ := exists_columnTexts hcounts.2.2 hbody
  have hopens : Opens (counted above) left child.table before := by
    have := hleft.opens ((opens_opening ho hcounts.2.1).columns hbefore)
    rwa [← habove, List.append_nil, List.nil_append] at this
  obtain ⟨x', hread, hx', -⟩ := read_given hp hgiven (isBlank_getLast?_trim line) hx.read
  have hgives : ColumnText (trim line') ⟨x', some parent.small⟩ :=
    ⟨hgiven.isIdle hx.counts, hgiven.header?, hgiven.ne_close, hread⟩
  have hcut {l : List Char} (hl : Counts (trim l)) :
      counted (above ++ l :: rest) = counted above ++ [trim l] ++ counted rest := by
    rw [counted_append, counted_cons hl, List.append_assoc, List.singleton_append]
  have htexts : significantTexts document = counted above ++ [trim line] ++ counted rest := by
    rw [significantTexts_eq, hd, hcut hx.counts]
  obtain ⟨body', columns', texts, items', hrest, hcolumns, htail⟩ :=
    Opens.below hf htexts (hopens.columns (.cons hx .nil))
  have hcounts' : ∀ t ∈ body' ++ ['\x7d'] :: texts, Counts t := fun t ht =>
    counts_of_mem_counted (hrest.symm ▸ ht)
  simp only [List.forall_mem_append, List.forall_mem_cons] at hcounts'
  obtain ⟨after, hafter, -⟩ := exists_columnTexts hcounts'.1 hcolumns
  obtain ⟨right, hright⟩ := exists_yields_document htail hcounts'.2.2
  -- the block with any column at the line between the columns before and after it
  have hyields {l : List Char} {c : ColumnLine} (hl : ColumnText (trim l) c) :
      Yields (counted (above ++ l :: rest)) (withBlock left right child.table (before ++ c :: after)) := by
    have := ((hopens.columns (.cons hl .nil)).columns hafter).close.append hright
    rw [hcut hl.counts, hrest]
    simpa [withBlock] using this
  refine ⟨left, right, before, after, x, x', hname, hx', entries_of_yields ?_, entries_of_yields ?_⟩
  · rw [significantTexts_eq, hd]
    exact hyields hx
  · rw [significantTexts_eq, hd']
    exact hyields hgives

end Edits

/-- In small letters the names of a column find what they found. -/
theorem place?_small (tables : List Outline.Table) {e : ColumnName} (h : PortableEnd e) :
    place? tables e.small = place? tables e := by
  simp only [place?, Outline.tableNamed?, Outline.Table.columnNamed?, ColumnName.small, h.table.nameKey_nameKey,
    h.column.nameKey_nameKey]

/-- What a document gives is what another one gives, with one more relationship. -/
structure Grows (es es' : List Entry) (link : NamedLink) : Prop where
  sound : Sound (tablesIn es') es'
  tables : (tablesIn es').map bare = (tablesIn es).map bare
  links : ((linksIn (tablesIn es') es').map (named (tablesIn es'))).Perm
    (some link :: (linksIn (tablesIn es) es).map (named (tablesIn es)))

section Grows

variable {es es' : List Entry} (hsound : Sound (tablesIn es) es) (hn : Outline.DistinctTables (tablesIn es))
  (hd : ∀ t ∈ tablesIn es, t.DistinctColumns) {t y : Outline.Table} {c x : Outline.Column}
  (ht : t ∈ tablesIn es) (hc : c ∈ t.columns)

include hsound hn hd ht hc

/-- A reference on a line of its own adds its relationship. -/
theorem grows_ref {left right : List Entry} (he : es = left ++ right)
    (he' : es' = left ++ .ref 0 ⟨.oneToMany, ⟨t.name, c.name⟩, ⟨y.name, x.name⟩⟩ :: right)
    (hy : y ∈ tablesIn es) (hx : x ∈ y.columns) : Grows es es' ⟨.oneToMany, t.name, c.name, y.name, x.name⟩ := by
  obtain ⟨l, hl, hk, hsource, htarget⟩ := refLink_of_nodup (k := .oneToMany) hn hd ht hy hc hx
  have htables : tablesIn es' = tablesIn es := by rw [he', tablesIn_ref, he]
  have hnamed : named (tablesIn es) l = some ⟨.oneToMany, t.name, c.name, y.name, x.name⟩ := by
    simp only [named, Outline.named?, hsource, htarget, hk, Option.bind_some, Option.map_some]
  refine ⟨?_, by rw [htables], ?_⟩
  · have hparts : Sound (tablesIn es) (left ++ right) := by rwa [← he]
    rw [htables, he']
    exact hparts.ref hl
  · have hadds : (linksIn (tablesIn es) es').Perm (l :: linksIn (tablesIn es) es) := by
      clear hnamed htables
      generalize tablesIn es = tables at hl ⊢
      rw [he', he]
      exact linksIn_ref hl
    rw [htables, ← hnamed, ← List.map_cons]
    exact hadds.map _

/-- A reference among settings adds the relationship of the column it stands at. -/
theorem grows_setting {left right : List Entry} {name : String} {before after : List ColumnLine}
    {x' : Outline.Column} (he : es = withBlock left right name (before ++ ⟨x, none⟩ :: after))
    (he' : es' =
      withBlock left right name (before ++ ⟨x', some (ColumnName.small ⟨t.name, c.name⟩)⟩ :: after))
    (hx : x'.name = x.name) (hp : PortableEnd ⟨t.name, c.name⟩) :
    Grows es es' ⟨.oneToMany, t.name, c.name, name, x.name⟩ := by
  obtain ⟨p, hplace, hsource⟩ := place?_of_nodup hn ht (hd t ht) hc
  have hbare : (tablesIn es').map bare = (tablesIn es).map bare := by
    rw [he', he]
    exact bare_withBlock hx
  have hsame {α : Type} {f : List Outline.Table → α} (hf : ∀ tables, f (tables.map bare) = f tables) :
      f (tablesIn es') = f (tablesIn es) := by rw [← hf, hbare, hf]
  have hrefs : es'.filterMap Entry.ref? = es.filterMap Entry.ref? := by
    rw [he, he', refs_withBlock, refs_withBlock]
  have hfaults : es'.filterMap Entry.fault? = es.filterMap Entry.fault? := by
    rw [he, he', faults_withBlock, faults_withBlock]
  have htarget : Outline.columnAt? (tablesIn es) ⟨(tablesIn left).length, before.length⟩ =
      some (⟨name, (before ++ ⟨x, none⟩ :: after).map ColumnLine.column⟩, x) := by
    refine Outline.columnAt?_eq_some.mpr ⟨?_, ?_⟩
    · rw [he, tablesIn_withBlock, List.getElem?_append_right le_rfl, Nat.sub_self]
      rfl
    · simp
  have hnamed : named (tablesIn es) ⟨.oneToMany, p, ⟨(tablesIn left).length, before.length⟩⟩ =
      some ⟨.oneToMany, t.name, c.name, name, x.name⟩ := by
    simp only [named, Outline.named?, hsource, htarget, Option.bind_some, Option.map_some]
  refine ⟨⟨hfaults.trans hsound.faultless, ?_⟩, hbare, ?_⟩
  · intro q hq
    rw [hsame (f := fun tables => refLink tables q.2) fun tables => refLink_bare tables q.2]
    exact hsound.linked q (hrefs ▸ hq)
  · have hlinks : linksIn (tablesIn es') es' = linksIn (tablesIn es) es' :=
      hsame (f := fun tables => linksIn tables es') fun tables => linksIn_bare tables es'
    have hnames : named (tablesIn es') = named (tablesIn es) :=
      hsame (f := named) fun tables => funext (named_bare tables)
    have hadds : (linksIn (tablesIn es) es').Perm
        (⟨.oneToMany, p, ⟨(tablesIn left).length, before.length⟩⟩ :: linksIn (tablesIn es) es) := by
      have hsmall := (place?_small (tablesIn es) hp).trans hplace
      generalize tablesIn es = tables at hsmall ⊢
      rw [he', he]
      exact linksIn_withBlock hsmall
    rw [hlinks, hnames, ← hnamed, ← List.map_cons]
    exact hadds.map _

end Grows

/-- Each of the three spellings of one reference adds the same relationship to the others, and no diagnostic. -/
theorem read_refers {s : Outline.Sheet} (hs : s.grid.columns ≠ 0) {document document' : String} {r : Reading}
    (hr : read s document = .ok r) (hclean : r.diagnostics = [])
    (htables : Outline.DistinctTables (r.diagram.tables.map Table.outline))
    (hcolumns : ∀ t ∈ r.diagram.tables, t.outline.DistinctColumns)
    {t y : Table} {c x : Column} (ht : t ∈ r.diagram.tables) (hc : c ∈ t.columns) (hy : y ∈ r.diagram.tables)
    (hx : x ∈ y.columns) (hparent : PortableEnd ⟨t.name, c.name⟩) (hchild : PortableEnd ⟨y.name, x.name⟩)
    (h : Refers ⟨t.name, c.name⟩ ⟨y.name, x.name⟩ document document') :
    ∃ r', read s document' = .ok r' ∧ r'.diagnostics = [] ∧
      r'.diagram.tables.map (fun t => bare t.outline) = r.diagram.tables.map (fun t => bare t.outline) ∧
      (r'.diagram.relationships.map r'.diagram.named?).Perm
        (some ⟨.oneToMany, t.name, c.name, y.name, x.name⟩ :: r.diagram.relationships.map r.diagram.named?) := by
  obtain ⟨r₀, hr₀, hsound, houtlines, hlinks⟩ := read_of_entries hs document rfl
  obtain rfl : r₀ = r := Except.ok.inj (hr₀.symm.trans hr)
  have hsound := hsound.mp hclean
  obtain ⟨r', hr', hsound', houtlines', hlinks'⟩ := read_of_entries hs document' rfl
  have hmem {u : Table} (hu : u ∈ r₀.diagram.tables) :
      u.outline ∈ tablesIn ((entries document.toList).map Entry.unnumbered) :=
    houtlines ▸ List.mem_map_of_mem hu
  have hdistinct : ∀ u ∈ tablesIn ((entries document.toList).map Entry.unnumbered), u.DistinctColumns := by
    rw [← houtlines, List.forall_mem_map]
    exact hcolumns
  rw [houtlines] at htables
  have hf : (entries document.toList).filterMap Entry.fault? = [] := by
    have := hsound.faultless
    rwa [faults_unnumbered, List.map_eq_nil_iff] at this
  have hgrows : Grows ((entries document.toList).map Entry.unnumbered)
      ((entries document'.toList).map Entry.unnumbered) ⟨.oneToMany, t.name, c.name, y.name, x.name⟩ := by
    have hline {text : List Char}
        (href : ref? text = some ⟨.oneToMany, ⟨t.name, c.name⟩, ⟨y.name, x.name⟩⟩)
        (hadded : LineAdded text document document') :
        Grows ((entries document.toList).map Entry.unnumbered)
          ((entries document'.toList).map Entry.unnumbered) ⟨.oneToMany, t.name, c.name, y.name, x.name⟩ := by
      obtain ⟨left, right, he, he'⟩ := hadded.entries hf href
      exact grows_ref hsound htables hdistinct (hmem ht) (c := c.outline) (List.mem_map_of_mem hc) he he' (hmem hy)
        (x := x.outline) (List.mem_map_of_mem hx)
    cases h with
    | less hadded => exact hline (ref?_refLine hparent.writable hchild.writable) hadded
    | greater hadded => exact hline (ref?_greaterLine hchild.writable hparent.writable) hadded
    | setting hgiven =>
      obtain ⟨left, right, before, after, z, z', hz, hz', he, he'⟩ := hgiven.entries hf hparent
      have := grows_setting hsound htables hdistinct (hmem ht) (c := c.outline) (List.mem_map_of_mem hc) he he' hz'
        hparent
      rwa [hz] at this
  refine ⟨r', hr', hsound'.mpr hgrows.sound, ?_, ?_⟩
  · have := hgrows.tables
    rw [← houtlines, ← houtlines', List.map_map, List.map_map] at this
    exact this
  · rw [hlinks, hlinks']
    exact hgrows.links

/-- The document of lines. -/
def documentOf (ls : List (List Char)) : String := String.ofList (join '\n' ls)

/-- The lines of a table whose name and one of whose columns are no words. -/
def orderLines : List (List Char) :=
  ["Table \"Order Items\" \x7b".toList, "  Id int [pk]".toList, "  \"Ship To\" int [null]".toList, ['\x7d']]

/-- The lines of a table that refers to itself, and of a reference to it. -/
def customerLines : List (List Char) :=
  ["// buyers".toList, "Table Customers".toList, ['\x7b'], "  KEY int [pk]".toList,
    "  Parent int [null, ref: > customers.key]".toList, ['\x7d'], "Ref: Customers.KEY - \"Order Items\".Id".toList]

/-- The document of the two tables. -/
def orders : String := documentOf (orderLines ++ customerLines)

/-- The document with the reference on a line of its own, from the column that is referred to. -/
def ordersLess : String :=
  documentOf (orderLines ++ "Ref: Customers.KEY < \"Order Items\".\"Ship To\"".toList :: customerLines)

/-- The document with the reference on a line of its own, from the column that refers. -/
def ordersGreater : String :=
  documentOf (orderLines ++ "Ref: \"Order Items\".\"Ship To\" > Customers.KEY".toList :: customerLines)

/-- The document with the reference among the settings of the column. -/
def ordersSetting : String :=
  documentOf (["Table \"Order Items\" \x7b".toList, "  Id int [pk]".toList] ++
    "  \"Ship To\" int [ref: > Customers.KEY, null]".toList :: ['\x7d'] :: customerLines)

theorem toList_documentOf (ls : List (List Char)) : (documentOf ls).toList = join '\n' ls := String.toList_ofList

/-- Lines that are read without a fault are those of whole blocks and references. -/
theorem exists_document (ls : List (List Char)) (hl : lines (join '\n' ls) = ls)
    (hf : (entries (join '\n' ls)).filterMap Entry.fault? = []) : ∃ items, Document (counted ls) items := by
  rw [← toList_documentOf] at hl hf
  obtain ⟨items, hi⟩ := no_fault_iff.mp hf
  have := gives_entries_iff.mp hi
  rw [significantTexts_eq, hl] at this
  exact ⟨items, this⟩

theorem lines_orders : lines orders.toList = orderLines ++ customerLines := by
  rw [orders, toList_documentOf, orderLines, customerLines]
  -- the lines are spelled out by rewriting, since evaluating them would decode the literals
  repeat rw [String.toList_ofList]
  decide +kernel

theorem lineAdded_orders {text : List Char}
    (hl : lines (join '\n' (orderLines ++ text :: customerLines)) = orderLines ++ text :: customerLines)
    (ht : trim text = text) : LineAdded text orders (documentOf (orderLines ++ text :: customerLines)) := by
  obtain ⟨items, hi⟩ := exists_document orderLines (by decide +kernel) (by decide +kernel)
  rw [← toList_documentOf] at hl
  exact .below lines_orders hl ht hi

theorem settingGiven_orders :
    SettingGiven (refSetting ⟨"Customers", "KEY"⟩) ⟨"Order Items", "Ship To"⟩ orders ordersSetting := by
  have hid : IsColumn "Id int [pk]".toList ⟨"Id", .int, { isPrimaryKey := true, isNullable := false }⟩ :=
    isColumn_iff.mpr ⟨by decide +kernel, by decide, ⟨_, none⟩, by decide +kernel, rfl⟩
  have hextended : Extended (refSetting ⟨"Customers", "KEY"⟩) "null".toList "ref: > Customers.KEY, null".toList :=
    @Extended.among _ _ ["ref: > Customers.KEY".toList, " null".toList] [] ["null".toList]
      (by decide +kernel) (by decide +kernel) (by decide +kernel)
  have hgiven : Given (refSetting ⟨"Customers", "KEY"⟩)
      ('"' :: ("Ship To\" int ".toList ++ '[' :: ("null".toList ++ [']'])))
      ('"' :: ("Ship To\" int ".toList ++ '[' :: ("ref: > Customers.KEY, null".toList ++ [']']))) :=
    .among (by decide +kernel) (by decide +kernel) hextended
  have hcolumn : ColumnText (trim "  \"Ship To\" int [null]".toList) ⟨⟨"Ship To", .int, {}⟩, none⟩ :=
    ⟨by unfold Counts; decide +kernel, by decide +kernel, by decide +kernel, by decide +kernel⟩
  have hlines : lines orders.toList =
      orderLines.take 2 ++ "  \"Ship To\" int [null]".toList :: ['\x7d'] :: customerLines := lines_orders
  have hlines' : lines ordersSetting.toList = orderLines.take 2 ++
      "  \"Ship To\" int [ref: > Customers.KEY, null]".toList :: ['\x7d'] :: customerLines := by
    rw [ordersSetting, toList_documentOf, orderLines, customerLines]
    repeat rw [String.toList_ofList]
    decide +kernel
  exact @SettingGiven.within _ _ _ _ _ _ [] ["Table \"Order Items\" \x7b".toList] ["Id int [pk]".toList] _ _ _ _ _
    hlines hlines' (by decide +kernel) .nil (.sameLine (by decide +kernel)) (.cons hid .nil) hcolumn rfl hgiven

/-- The tables of the document. -/
def ordersTables : List Outline.Table :=
  [⟨"Order Items", [⟨"Id", .int, { isPrimaryKey := true, isNullable := false }⟩, ⟨"Ship To", .int, {}⟩]⟩,
    ⟨"Customers", [⟨"KEY", .int, { isPrimaryKey := true, isNullable := false }⟩,
      ⟨"Parent", .int, { isForeignKey := true }⟩]⟩]

theorem exists_reading {s : Outline.Sheet} (hs : s.grid.columns ≠ 0) (document : String) :
    ∃ r, read s document = .ok r ∧ r.diagram = (draft document).outline.draw s ∧
      r.diagnostics = (draft document).diagnostics :=
  ⟨_, read_eq hs document, rfl, rfl⟩

/-- A column of an outline is drawn with its names. -/
theorem exists_drawn {o : Outline} {s : Outline.Sheet} {t : Outline.Table} {c : Outline.Column} (ht : t ∈ o.tables)
    (hc : c ∈ t.columns) : ∃ u ∈ (o.draw s).tables, ∃ d ∈ u.columns, u.name = t.name ∧ d.name = c.name := by
  rw [← Outline.outlines_draw (s := s)] at ht
  obtain ⟨u, hu, rfl⟩ := List.mem_map.mp ht
  obtain ⟨d, hd, rfl⟩ := List.mem_map.mp hc
  exact ⟨u, hu, d, hd, rfl, rfl⟩

theorem read_refers_orders : ∃ r, read {} orders = .ok r ∧ r.diagnostics = [] ∧
    ∀ document' ∈ [ordersLess, ordersGreater, ordersSetting],
      Refers ⟨"Customers", "KEY"⟩ ⟨"Order Items", "Ship To"⟩ orders document' ∧
      ∃ r', read {} document' = .ok r' ∧ r'.diagnostics = [] ∧
        (r'.diagram.relationships.map r'.diagram.named?).Perm
          (some ⟨.oneToMany, "Customers", "KEY", "Order Items", "Ship To"⟩ ::
            r.diagram.relationships.map r.diagram.named?) := by
  have htables : (draft orders).outline.tables = ordersTables := by
    rw [tables_draft, orders, toList_documentOf, orderLines, customerLines]
    repeat rw [String.toList_ofList]
    decide +kernel
  have hclean : (draft orders).diagnostics = [] := by
    rw [diagnostics_draft, orders, toList_documentOf, orderLines, customerLines]
    repeat rw [String.toList_ofList]
    decide +kernel
  have hportable {name : String} (h : name.toList ≠ [] ∧ (∀ c ∈ name.toList, c.toNat < 128) ∧
      (∀ c ∈ name.toList, c ∉ signs) ∧ OneLine name.toList) : Portable name := ⟨h.1, h.2.1, h.2.2.1, h.2.2.2⟩
  have hparent : PortableEnd ⟨"Customers", "KEY"⟩ := ⟨hportable (by decide), hportable (by decide)⟩
  have hchild : PortableEnd ⟨"Order Items", "Ship To"⟩ := ⟨hportable (by decide), hportable (by decide)⟩
  have hdistinct : Outline.DistinctTables ordersTables ∧ ∀ t ∈ ordersTables, t.DistinctColumns := by
    unfold Outline.DistinctTables Outline.Table.DistinctColumns
    decide +kernel
  obtain ⟨t, ht, c, hc, htn, hcn⟩ := exists_drawn (o := (draft orders).outline) (s := {})
    (t := ⟨"Customers", _⟩) (c := ⟨"KEY", _, _⟩) (by rw [htables]; exact .tail _ (.head _)) (.head _)
  obtain ⟨y, hy, x, hx, hyn, hxn⟩ := exists_drawn (o := (draft orders).outline) (s := {})
    (t := ⟨"Order Items", _⟩) (c := ⟨"Ship To", _, _⟩) (by rw [htables]; exact .head _) (.tail _ (.head _))
  obtain ⟨r, hr, hdiagram, hdiagnostics⟩ := exists_reading (s := {}) (by decide) orders
  have houtlines : r.diagram.tables.map Table.outline = ordersTables := by
    rw [hdiagram, Outline.outlines_draw, htables]
  rw [← hdiagnostics] at hclean
  rw [← hdiagram] at ht hy
  have hspellings : ∀ document' ∈ [ordersLess, ordersGreater, ordersSetting],
      Refers ⟨"Customers", "KEY"⟩ ⟨"Order Items", "Ship To"⟩ orders document' := by
    have hless : refLine ⟨.oneToMany, ⟨"Customers", "KEY"⟩, ⟨"Order Items", "Ship To"⟩⟩ =
        "Ref: Customers.KEY < \"Order Items\".\"Ship To\"".toList := by decide +kernel
    have hgreater : greaterLine ⟨"Order Items", "Ship To"⟩ ⟨"Customers", "KEY"⟩ =
        "Ref: \"Order Items\".\"Ship To\" > Customers.KEY".toList := by decide +kernel
    simp only [List.forall_mem_cons, List.not_mem_nil, false_implies, implies_true, and_true]
    refine ⟨.less ?_, .greater ?_, .setting settingGiven_orders⟩
    · rw [hless]
      exact lineAdded_orders (by decide +kernel) (by decide +kernel)
    · rw [hgreater]
      exact lineAdded_orders (by decide +kernel) (by decide +kernel)
  refine ⟨r, hr, hclean, fun document' hd => ⟨hspellings document' hd, ?_⟩⟩
  obtain ⟨r', hr', hclean', -, hlinks⟩ := read_refers (by decide) hr hclean
    (by rw [houtlines]; exact hdistinct.1)
    (by rw [← List.forall_mem_map (f := Table.outline), houtlines]; exact hdistinct.2)
    ht hc hy hx (by rw [htn, hcn]; exact hparent) (by rw [hyn, hxn]; exact hchild)
    (by rw [htn, hcn, hyn, hxn]; exact hspellings document' hd)
  rw [htn, hcn, hyn, hxn] at hlinks
  exact ⟨r', hr', hclean', hlinks⟩

end Erd.Dbml
