import Erd.Proofs.Dbml.Document
import Erd.Proofs.Outline
import Mathlib.Data.List.Perm.Basic

/-!
# Every line is accounted for

A header cuts a document: whatever stands before it, the reader starts afresh. So the lines that count are
those before the first header and then sections, each of a header and the lines up to the next. In its
section every line has a role, told without the reader: before the brace that opens the block, between the
braces, and behind the one that closes it. Reading loses no line: each header gives a table, each line
between the braces a column or a fault, each reference a relationship or a fault, and no line two faults.

**Results.**
* `map_fst_roles`, `header?_roles`: every line that counts has one role, and the headers have theirs.
* `entriesFrom_sections`: what a section gives depends on it alone.
* `perm_faultsOf`: the faults of a document are those of its lines, each with at most one.
* `links_draft`: each reference that leads somewhere gives a link.
* `accounted`: what the roles of the lines say about the reading.
-/
namespace Erd.Dbml

open Text

/-! ## Sections -/

/-- The line is a header. -/
def isHeader (l : Line) : Bool := (header? l.text).isSome

/-- The lines before the first header. -/
def preface (ls : List Line) : List Line := ls.takeWhile fun l => !isHeader l

/-- A header and the lines after it, up to the next header. -/
structure Section where
  head : Line
  header : Header
  lines : List Line

/-- The sections of lines. -/
def sections : List Line → List Section
  | [] => []
  | l :: ls =>
    match header? l.text with
    | some h => ⟨l, h, preface ls⟩ :: sections ls
    | none => sections ls

namespace Section

/-- The lines after the brace that opens the block; none if there is no such brace. -/
def body (x : Section) : List Line :=
  if x.header.opens then x.lines else (x.lines.dropWhile fun l => l.text ≠ ['\x7b']).tail

/-- A brace closes the block. -/
def isClosed (x : Section) : Bool := x.body.any fun l => l.text = ['\x7d']

end Section

/-! ## Roles -/

/-- What a line is in its document. -/
inductive Role where
  /-- The header of a table, and whether its block is closed. -/
  | header (h : Header) (isClosed : Bool)
  /-- The brace that opens or the one that closes a block. -/
  | brace
  /-- A column, between the braces of a block. -/
  | column (c : ColumnLine)
  /-- A reference, outside of blocks. -/
  | ref (r : Ref)
  /-- A line without a place, and what is wrong with it. -/
  | stray (f : Fault)
  deriving DecidableEq, Repr

/-- The role of a line outside of blocks. -/
def outsideRole (l : Line) : Role :=
  match ref? l.text with
  | some r => .ref r
  | none => .stray (outsideFault l.text)

/-- Lines outside of blocks with their roles. -/
def outsideRoles (ls : List Line) : List (Line × Role) := ls.map fun l => (l, outsideRole l)

/-- The role of a line between braces that does not close them. -/
def insideRole (l : Line) : Role :=
  match ColumnLine.read l.text with
  | .ok c => .column c
  | .error f => .stray (columnFault l f)

/-- The lines after the brace that opens a block, with their roles. -/
def insideRoles : List Line → List (Line × Role)
  | [] => []
  | l :: ls =>
    if l.text = ['\x7d'] then (l, .brace) :: outsideRoles ls else (l, insideRole l) :: insideRoles ls

/-- The lines after a header without its brace, with their roles. -/
def waitingRoles (name : String) : List Line → List (Line × Role)
  | [] => []
  | l :: ls =>
    if l.text = ['\x7b'] then (l, .brace) :: insideRoles ls
    else (l, .stray (.braceExpected name)) :: waitingRoles name ls

/-- The lines of a section after its header, with their roles. -/
def Section.bodyRoles (x : Section) : List (Line × Role) :=
  if x.header.opens then insideRoles x.lines else waitingRoles x.header.name x.lines

/-- The lines of a section with their roles. -/
def Section.roles (x : Section) : List (Line × Role) := (x.head, .header x.header x.isClosed) :: x.bodyRoles

/-- The lines of a document with their roles. -/
def roles (ls : List Line) : List (Line × Role) :=
  outsideRoles (preface ls) ++ (sections ls).flatMap Section.roles

theorem map_fst_outsideRoles (ls : List Line) : (outsideRoles ls).map Prod.fst = ls := by
  rw [outsideRoles, List.map_map]
  exact List.map_id ls

theorem map_fst_insideRoles (ls : List Line) : (insideRoles ls).map Prod.fst = ls := by
  induction ls with
  | nil => rfl
  | cons l ls ih =>
    rw [insideRoles]
    split <;> simp [ih, map_fst_outsideRoles]

theorem map_fst_waitingRoles (name : String) (ls : List Line) :
    (waitingRoles name ls).map Prod.fst = ls := by
  induction ls with
  | nil => rfl
  | cons l ls ih =>
    rw [waitingRoles]
    split <;> simp [ih, map_fst_insideRoles]

theorem Section.map_fst_roles (x : Section) : x.roles.map Prod.fst = x.head :: x.lines := by
  rw [Section.roles, Section.bodyRoles]
  split <;> simp [map_fst_insideRoles, map_fst_waitingRoles]

/-- Every line has one role. -/
theorem map_fst_roles (ls : List Line) : (roles ls).map Prod.fst = ls := by
  have h : preface ls ++ (sections ls).flatMap (fun x => x.head :: x.lines) = ls := by
    induction ls with
    | nil => rfl
    | cons l ls ih =>
      cases hh : header? l.text with
      | some h => simpa [preface, sections, isHeader, hh] using ih
      | none => simpa [preface, sections, isHeader, hh] using ih
  rw [roles, List.map_append, List.map_flatMap, map_fst_outsideRoles]
  simpa only [Section.map_fst_roles] using h

/-- The headers are the lines that sections start with. -/
theorem names_sections (ls : List Line) :
    (sections ls).map (fun x => x.header.name) = ls.filterMap fun l => (header? l.text).map Header.name := by
  induction ls with
  | nil => rfl
  | cons l ls ih =>
    rw [sections]
    cases hh : header? l.text <;> simp [hh, ih]

/-! ## What roles hold -/

/-- The fault of a line by itself. -/
def ownFault? (p : Line × Role) : Option (Nat × Fault) :=
  match p.2 with
  | .header h false => some (p.1.number, .unclosed h.name)
  | .stray f => some (p.1.number, f)
  | _ => none

/-- The reference of a line. -/
def roleRef? (p : Line × Role) : Option (Nat × Ref) :=
  match p.2 with
  | .ref r => some (p.1.number, r)
  | _ => none

/-- The column of a line. -/
def roleColumn? (p : Line × Role) : Option ColumnLine :=
  match p.2 with
  | .column c => some c
  | _ => none

/-- Entries tell what the roles of lines hold, faults in `more` after theirs, and these blocks. -/
structure Tells (es : List Entry) (ps : List (Line × Role)) (more : List (Nat × Fault))
    (bs : List (String × List ColumnLine)) : Prop where
  faults : es.filterMap Entry.fault? = ps.filterMap ownFault? ++ more
  blocks : (es.filterMap Entry.block?).map (fun b => (b.name, b.columns)) = bs
  refs : es.filterMap Entry.ref? = ps.filterMap roleRef?

namespace Tells

variable {es : List Entry} {ps : List (Line × Role)} {more : List (Nat × Fault)}
  {bs : List (String × List ColumnLine)} (h : Tells es ps more bs) (l : Line)

include h

theorem stray (f : Fault) : Tells (.fault l.number f :: es) ((l, .stray f) :: ps) more bs :=
  ⟨congrArg ((l.number, f) :: ·) h.faults, h.blocks, h.refs⟩

theorem ref (r : Ref) : Tells (.ref l.number r :: es) ((l, .ref r) :: ps) more bs :=
  ⟨h.faults, h.blocks, congrArg ((l.number, r) :: ·) h.refs⟩

theorem column (c : ColumnLine) : Tells es ((l, .column c) :: ps) more bs := ⟨h.faults, h.blocks, h.refs⟩

theorem brace : Tells es ((l, .brace) :: ps) more bs := ⟨h.faults, h.blocks, h.refs⟩

omit l in
theorem table (b : Block) : Tells (.table b :: es) ps more ((b.name, b.columns) :: bs) :=
  ⟨h.faults, congrArg ((b.name, b.columns) :: ·) h.blocks, h.refs⟩

end Tells

/-- Lines that count and are no headers. -/
def Unheaded (ls : List Line) : Prop := ∀ l ∈ ls, l.isIdle = false ∧ header? l.text = none

theorem unheaded_preface {ls : List Line} (h : ∀ l ∈ ls, l.isIdle = false) : Unheaded (preface ls) := by
  intro l hl
  have hp := List.mem_takeWhile_imp hl
  refine ⟨h l ((List.takeWhile_sublist _).mem hl), ?_⟩
  simpa [isHeader] using hp

theorem unheaded_lines {ls : List Line} (h : ∀ l ∈ ls, l.isIdle = false) :
    ∀ x ∈ sections ls, Unheaded x.lines := by
  induction ls with
  | nil => intro x hx; cases hx
  | cons l ls ih =>
    have hls := (List.forall_mem_cons.mp h).2
    rw [sections]
    split
    · exact List.forall_mem_cons.mpr ⟨unheaded_preface hls, ih hls⟩
    · exact ih hls

/-- Outside of blocks each line gives an entry of its own. -/
theorem tells_outside {ls : List Line} (h : Unheaded ls) :
    Tells (entriesFrom none ls) (outsideRoles ls) [] [] := by
  induction ls with
  | nil => exact ⟨rfl, rfl, rfl⟩
  | cons l ls ih =>
    obtain ⟨⟨hi, hh⟩, hls⟩ := List.forall_mem_cons.mp h
    have hroles : outsideRoles (l :: ls) = (l, outsideRole l) :: outsideRoles ls := rfl
    rw [entriesFrom_cons, step_outside hi hh, hroles, outsideEntry, outsideRole]
    cases ref? l.text with
    | some r => exact (ih hls).ref l r
    | none => exact (ih hls).stray l _

/-- Outside of blocks there are no columns. -/
theorem columns_outsideRoles (ls : List Line) : (outsideRoles ls).filterMap roleColumn? = [] := by
  refine List.filterMap_eq_nil_iff.mpr fun p hp => ?_
  obtain ⟨l, -, rfl⟩ := List.mem_map.mp hp
  rw [outsideRole]
  cases ref? l.text <;> rfl

/-- The fault of a block that is not closed. -/
def unclosedFaults (line : Nat) (name : String) (isClosed : Bool) : List (Nat × Fault) :=
  if isClosed then [] else [(line, .unclosed name)]

/-- In an open block each line gives a column or a fault, up to the brace that closes it. -/
theorem tells_inside {ls : List Line} (h : Unheaded ls) {b : Block} (hb : b.isOpen = true) :
    Tells (entriesFrom (some b) ls) (insideRoles ls)
      (unclosedFaults b.line b.name (ls.any fun l => l.text = ['\x7d']))
      [(b.name, b.columns ++ (insideRoles ls).filterMap roleColumn?)] := by
  induction ls generalizing b with
  | nil => exact ⟨rfl, by simp [entriesFrom, unclosed, insideRoles, List.filterMap_cons, Entry.block?], rfl⟩
  | cons l ls ih =>
    obtain ⟨⟨hi, hh⟩, hls⟩ := List.forall_mem_cons.mp h
    rw [entriesFrom_cons, step_inside hi hb hh, insideRoles]
    by_cases ht : l.text = ['\x7d']
    · have hcolumns := columns_outsideRoles ls
      have := ((tells_outside hls).brace l).table b
      simpa [ht, hcolumns, unclosedFaults, List.filterMap_cons, roleColumn?] using this
    · rw [if_neg ht, if_neg ht, insideRole]
      cases hc : ColumnLine.read l.text with
      | ok c =>
        have := (ih hls (b := b.add c) hb).column l c
        simpa [ht, Block.add, List.filterMap_cons, roleColumn?] using this
      | error f =>
        have := (ih hls hb).stray l (columnFault l f)
        simpa [ht, List.filterMap_cons, roleColumn?] using this

/-- Before the brace of a block each line gives a fault, and then the block is open. -/
theorem tells_waiting {ls : List Line} (h : Unheaded ls) {b : Block} (hb : b.isOpen = false) :
    Tells (entriesFrom (some b) ls) (waitingRoles b.name ls)
      (unclosedFaults b.line b.name
        ((ls.dropWhile fun l => l.text ≠ ['\x7b']).tail.any fun l => l.text = ['\x7d']))
      [(b.name, b.columns ++ (waitingRoles b.name ls).filterMap roleColumn?)] := by
  induction ls with
  | nil => exact ⟨rfl, by simp [entriesFrom, unclosed, waitingRoles, List.filterMap_cons, Entry.block?], rfl⟩
  | cons l ls ih =>
    obtain ⟨⟨hi, hh⟩, hls⟩ := List.forall_mem_cons.mp h
    rw [entriesFrom_cons, step_waiting hi hb hh, waitingRoles]
    by_cases ht : l.text = ['\x7b']
    · have := (tells_inside hls (b := { b with isOpen := true }) rfl).brace l
      simpa [ht, List.filterMap_cons, roleColumn?] using this
    · have := (ih hls).stray l (.braceExpected b.name)
      simpa [ht, List.filterMap_cons, roleColumn?] using this

/-! ## Headers -/

/-- The header that a role is about. -/
def Role.header? : Role → Option Header
  | .header h _ => some h
  | _ => none

theorem header?_outsideRoles {ls : List Line} : ∀ p ∈ outsideRoles ls, p.2.header? = none := by
  intro p hp
  obtain ⟨l, -, rfl⟩ := List.mem_map.mp hp
  rw [outsideRole]
  cases ref? l.text <;> rfl

theorem header?_insideRoles (ls : List Line) : ∀ p ∈ insideRoles ls, p.2.header? = none := by
  induction ls with
  | nil => intro p hp; cases hp
  | cons l ls ih =>
    rw [insideRoles]
    split
    · exact List.forall_mem_cons.mpr ⟨rfl, header?_outsideRoles⟩
    · refine List.forall_mem_cons.mpr ⟨?_, ih⟩
      show (insideRole l).header? = none
      rw [insideRole]
      cases ColumnLine.read l.text <;> rfl

theorem header?_waitingRoles (name : String) (ls : List Line) :
    ∀ p ∈ waitingRoles name ls, p.2.header? = none := by
  induction ls with
  | nil => intro p hp; cases hp
  | cons l ls ih =>
    rw [waitingRoles]
    split
    · exact List.forall_mem_cons.mpr ⟨rfl, header?_insideRoles ls⟩
    · exact List.forall_mem_cons.mpr ⟨rfl, ih⟩

theorem header?_head {ls : List Line} : ∀ x ∈ sections ls, header? x.head.text = some x.header := by
  induction ls with
  | nil => intro x hx; cases hx
  | cons l ls ih =>
    rw [sections]
    split
    · next h hh => exact List.forall_mem_cons.mpr ⟨hh, ih⟩
    · exact ih

/-- The headers among lines, and no other lines, have the role of one. -/
theorem header?_roles {ls : List Line} (hi : ∀ l ∈ ls, l.isIdle = false) :
    ∀ p ∈ roles ls, p.2.header? = header? p.1.text := by
  have plain {ps : List (Line × Role)} {ms : List Line} (hm : Unheaded ms) (hs : ps.map Prod.fst = ms)
      (h : ∀ p ∈ ps, p.2.header? = none) : ∀ p ∈ ps, p.2.header? = header? p.1.text := by
    intro p hp
    rw [h p hp, (hm p.1 (hs ▸ List.mem_map_of_mem hp)).2]
  intro p hp
  rcases List.mem_append.mp hp with hp | hp
  · exact plain (unheaded_preface hi) (map_fst_outsideRoles _) header?_outsideRoles p hp
  · obtain ⟨x, hx, hp⟩ := List.mem_flatMap.mp hp
    have hx' := unheaded_lines hi x hx
    rw [Section.roles, Section.bodyRoles] at hp
    rcases List.mem_cons.mp hp with rfl | hp
    · exact (header?_head x hx).symm
    · split at hp
      · exact plain hx' (map_fst_insideRoles _) (header?_insideRoles _) p hp
      · exact plain hx' (map_fst_waitingRoles _ _) (header?_waitingRoles _ _) p hp

/-! ## Documents -/

/-- The block that a section starts. -/
def Section.block (x : Section) : Block := ⟨x.header.name, x.head.number, x.header.opens, []⟩

/-- The columns of a section. -/
def Section.columns (x : Section) : List ColumnLine := x.bodyRoles.filterMap roleColumn?

theorem tells_section {x : Section} (h : Unheaded x.lines) :
    Tells (entriesFrom (some x.block) x.lines) x.bodyRoles
      (unclosedFaults x.head.number x.header.name x.isClosed) [(x.header.name, x.columns)] := by
  rw [Section.columns, Section.isClosed, Section.body, Section.bodyRoles]
  cases ho : x.header.opens with
  | true => exact tells_inside h (b := x.block) ho
  | false => exact tells_waiting h (b := x.block) ho

/-- A header cuts the entries: those of each section depend on it alone. -/
theorem entriesFrom_sections {ls : List Line} (hi : ∀ l ∈ ls, l.isIdle = false) (current : Option Block) :
    entriesFrom current ls = entriesFrom current (preface ls) ++
      (sections ls).flatMap fun x => entriesFrom (some x.block) x.lines := by
  induction ls generalizing current with
  | nil => simp [preface, sections, entriesFrom]
  | cons l ls ih =>
    obtain ⟨hl, hls⟩ := List.forall_mem_cons.mp hi
    rw [entriesFrom_cons, ih hls, sections]
    cases hh : header? l.text with
    | some h => simp [preface, isHeader, hh, step_of_header hl hh, entriesFrom, Section.block]
    | none => simp [preface, isHeader, hh, entriesFrom_cons]

section Entries

variable (s : List Char)

theorem blocks_entries : ((entries s).filterMap Entry.block?).map (fun b => (b.name, b.columns)) =
    (sections (significantLines s)).map fun x => (x.header.name, x.columns) := by
  have hi := isIdle_significantLines s
  rw [entries_eq, entriesFrom_sections hi, List.filterMap_append, List.map_append,
    (tells_outside (unheaded_preface hi)).blocks, List.nil_append, List.filterMap_flatMap, List.map_flatMap,
    List.map_eq_flatMap]
  exact List.flatMap_congr fun x hx => (tells_section (unheaded_lines hi x hx)).blocks

theorem refs_entries : refsOf s = (roles (significantLines s)).filterMap roleRef? := by
  have hi := isIdle_significantLines s
  rw [refsOf, entries_eq, entriesFrom_sections hi, roles, List.filterMap_append, List.filterMap_append,
    (tells_outside (unheaded_preface hi)).refs, List.filterMap_flatMap, List.filterMap_flatMap]
  exact congrArg (_ ++ ·) (List.flatMap_congr fun x hx => (tells_section (unheaded_lines hi x hx)).refs)

/-- The faults of the lines are those of their roles; that of a header comes behind those of its section. -/
theorem faults_entries :
    ((entries s).filterMap Entry.fault?).Perm ((roles (significantLines s)).filterMap ownFault?) := by
  have hi := isIdle_significantLines s
  rw [entries_eq, entriesFrom_sections hi, roles, List.filterMap_append, List.filterMap_append,
    (tells_outside (unheaded_preface hi)).faults, List.append_nil, List.filterMap_flatMap,
    List.filterMap_flatMap]
  refine List.Perm.append_left _ (List.Perm.flatMap_left _ fun x hx => ?_)
  rw [(tells_section (unheaded_lines hi x hx)).faults, Section.roles]
  cases x.isClosed with
  | true => simp [unclosedFaults, List.filterMap_cons, ownFault?]
  | false => exact List.perm_append_singleton _ _

end Entries

/-- The lines of a document that count, with their roles. -/
def rolesOf (document : String) : List (Line × Role) := roles (significantLines document.toList)

/-- The fault of a line: its own, or that its reference leads nowhere. -/
def lineFault? (tables : List Outline.Table) (p : Line × Role) : Option (Nat × Fault) :=
  (ownFault? p).or ((roleRef? p).bind (refFault? tables))

theorem filterMap_or_perm {α β : Type} {f g : α → Option β} (h : ∀ a, f a = none ∨ g a = none)
    (l : List α) : (l.filterMap f ++ l.filterMap g).Perm (l.filterMap fun a => (f a).or (g a)) := by
  induction l with
  | nil => exact .nil
  | cons a l ih =>
    cases hf : f a with
    | none => cases hg : g a with
      | none => simpa [List.filterMap_cons, hf, hg] using ih
      | some b =>
        simp only [List.filterMap_cons, hf, hg, Option.none_or]
        exact List.perm_middle.trans (ih.cons b)
    | some b =>
      have hg : g a = none := (h a).resolve_left (by simp [hf])
      simpa [List.filterMap_cons, hf, hg] using ih

/-- The faults of a document are those of its lines, each of which has at most one. -/
theorem perm_faultsOf (document : String) : (faultsOf document.toList).Perm
    ((rolesOf document).filterMap (lineFault? (tablesOf document.toList))) := by
  have hdisjoint (p : Line × Role) :
      ownFault? p = none ∨ (roleRef? p).bind (refFault? (tablesOf document.toList)) = none := by
    obtain ⟨l, role⟩ := p
    cases role <;> simp [ownFault?, roleRef?]
  have hrefs : (refsOf document.toList).filterMap (refFault? (tablesOf document.toList)) =
      (rolesOf document).filterMap fun p => (roleRef? p).bind (refFault? (tablesOf document.toList)) := by
    rw [refs_entries, List.filterMap_filterMap]
    rfl
  rw [faultsOf, hrefs]
  exact (List.Perm.append_right _ (faults_entries document.toList)).trans (filterMap_or_perm hdisjoint _)

/-! ## Lines and diagnostics -/

section Keys

variable {α β : Type} {f : α → Option β} (key : α → Nat) {line : β → Nat}
  (hk : ∀ a b, f a = some b → line b = key a)

include hk

/-- What is picked from elements has their keys, each at most once. -/
theorem keys_filterMap (l : List α) : ((l.filterMap f).map line).Sublist (l.map key) := by
  induction l with
  | nil => exact .slnil
  | cons a l ih =>
    rw [List.filterMap_cons]
    cases hf : f a with
    | none => exact ih.cons (key a)
    | some b =>
      rw [List.map_cons, List.map_cons, hk a b hf]
      exact ih.cons_cons (key a)

/-- Where keys are distinct, what is picked under the key of an element is picked from it. -/
theorem filter_filterMap_key {l : List α} (hn : (l.map key).Nodup) {a : α} (ha : a ∈ l) :
    (l.filterMap f).filter (fun b => line b == key a) = (f a).toList := by
  have hother {l : List α} (h : ∀ b ∈ l, key b ≠ key a) :
      (l.filterMap f).filter (fun b => line b == key a) = [] := by
    refine List.filter_eq_nil_iff.mpr fun b hb => ?_
    obtain ⟨c, hc, hcb⟩ := List.mem_filterMap.mp hb
    simpa [hk c b hcb] using h c hc
  obtain ⟨left, right, rfl⟩ := List.append_of_mem ha
  rw [List.map_append, List.map_cons, List.nodup_middle, List.nodup_cons, ← List.map_append] at hn
  have hne : ∀ b ∈ left ++ right, key b ≠ key a := fun b hb he =>
    hn.1 (List.mem_map.mpr ⟨b, hb, he⟩)
  have hright := hother fun b hb => hne b (List.mem_append_right left hb)
  rw [List.filterMap_append, List.filter_append, hother fun b hb => hne b (List.mem_append_left _ hb),
    List.nil_append, List.filterMap_cons]
  cases hf : f a with
  | none => simpa using hright
  | some b => simpa [hk a b hf] using hright

end Keys

theorem eq_toList_of_perm {α : Type} {l : List α} {o : Option α} (h : l.Perm o.toList) : l = o.toList := by
  cases o with
  | none => exact h.eq_nil
  | some a => exact List.perm_singleton.mp h

/-- The diagnostic of a line. -/
def complaint? (tables : List Outline.Table) (p : Line × Role) : Option Diagnostic :=
  (lineFault? tables p).map diagnosticOf

theorem line_of_complaint? {tables : List Outline.Table} (p : Line × Role) (d : Diagnostic)
    (h : complaint? tables p = some d) : d.line = p.1.number := by
  obtain ⟨l, role⟩ := p
  obtain ⟨q, hq, rfl⟩ := Option.map_eq_some_iff.mp h
  cases role with
  | header h isClosed =>
    cases isClosed <;> cases hq
    rfl
  | brace => cases hq
  | column c => cases hq
  | stray f =>
    cases hq
    rfl
  | ref r =>
    have hq : refFault? tables (l.number, r) = some q := hq
    rw [refFault?] at hq
    split at hq
    · cases hq
    · cases hq
      rfl

theorem nodup_rolesOf (document : String) : ((rolesOf document).map fun p => p.1.number).Nodup := by
  have := nodup_numbers document.toList
  rw [← map_fst_roles (significantLines document.toList), List.map_map] at this
  exact this

section Diagnostics

variable (document : String)

theorem perm_diagnostics : (draft document).diagnostics.Perm
    ((rolesOf document).filterMap (complaint? (tablesOf document.toList))) := by
  rw [diagnostics_draft]
  have := (perm_faultsOf document).map diagnosticOf
  rwa [List.map_filterMap] at this

/-- No two diagnostics have one line. -/
theorem nodup_diagnostics : ((draft document).diagnostics.map Diagnostic.line).Nodup := by
  rw [((perm_diagnostics document).map _).nodup_iff]
  exact (nodup_rolesOf document).sublist (keys_filterMap (fun p => p.1.number) line_of_complaint? _)

/-- The diagnostics of a line are what is wrong with it. -/
theorem diagnostics_of_line {p : Line × Role} (hp : p ∈ rolesOf document) :
    (draft document).diagnostics.filter (fun d => d.line == p.1.number) =
      (complaint? (tablesOf document.toList) p).toList := by
  refine eq_toList_of_perm (((perm_diagnostics document).filter _).trans (.of_eq ?_))
  exact filter_filterMap_key (fun p : Line × Role => p.1.number) line_of_complaint?
    (nodup_rolesOf document) hp

end Diagnostics

/-! ## Tables and links -/

/-- The links of the references among the settings of a section with the index `i`. -/
def Section.settingLinks (tables : List Outline.Table) (i : Nat) (x : Section) : List Outline.Link :=
  (x.columns.mapIdx fun j c => settingLink tables x.header.name ⟨i, j⟩ c).filterMap fun o =>
    o.bind Except.toOption

/-- The links of a document: those of its references, and then those of its settings. -/
def linksOf (tables : List Outline.Table) (document : String) : List Outline.Link :=
  ((rolesOf document).filterMap roleRef?).filterMap (fun q => (refLink tables q.2).toOption) ++
    ((sections (significantLines document.toList)).mapIdx (Section.settingLinks tables)).flatten

theorem flatten_settings {tables : List Outline.Table} {bs : List Block} {xs : List Section}
    (h : bs.map (fun b => (b.name, b.columns)) = xs.map fun x => (x.header.name, x.columns)) :
    (bs.mapIdx (blockLinks tables)).flatten.filterMap Except.toOption =
      (xs.mapIdx (Section.settingLinks tables)).flatten := by
  have hparts : (bs.mapIdx (blockLinks tables)).map (List.filterMap Except.toOption) =
      xs.mapIdx (Section.settingLinks tables) := by
    refine List.ext_getElem (by simpa using congrArg List.length h) fun i hi hi' => ?_
    simp only [List.length_map, List.length_mapIdx] at hi hi'
    have hb := List.getElem_of_eq h (i := i) (by rwa [List.length_map])
    rw [List.getElem_map, List.getElem_map] at hb
    obtain ⟨hname, hcolumns⟩ := Prod.mk.inj hb
    rw [List.getElem_map, List.getElem_mapIdx, List.getElem_mapIdx, blockLinks, Section.settingLinks,
      List.filterMap_filterMap, hname, hcolumns]
    rfl
  rw [← hparts, List.filterMap_flatten]

/-- The links of a draft are those of the references on lines of their own and those of the settings. -/
theorem links_draft (document : String) :
    (draft document).outline.links = linksOf (tablesOf document.toList) document := by
  rw [linksOf, rolesOf, ← refs_entries, ← flatten_settings (blocks_entries document.toList), outline_draft]
  exact congrArg (· ++ _) List.filterMap_map

/-- The table that a section gives. -/
def Section.outline (x : Section) : Outline.Table := ⟨x.header.name, x.columns.map ColumnLine.column⟩

theorem tablesOf_eq (document : String) :
    tablesOf document.toList = (sections (significantLines document.toList)).map Section.outline := by
  have := congrArg (List.map fun q : String × List ColumnLine =>
    Outline.Table.mk q.1 (q.2.map ColumnLine.column)) (blocks_entries document.toList)
  rwa [List.map_map, List.map_map] at this

/-! ## The account -/

/-- The diagnostics of a reading at a line. -/
def complaintsAt (r : Reading) (l : Line) : List Diagnostic :=
  r.diagnostics.filter fun d => d.line == l.number

/-- A reading tells of every line that counts what its role is. -/
structure Accounted (s : Outline.Sheet) (document : String) (r : Reading) : Prop where
  /-- Every line has one role, and the headers have theirs. -/
  lines : (rolesOf document).map Prod.fst = significantLines document.toList
  headers : ∀ p ∈ rolesOf document, p.2.header? = header? p.1.text
  /-- Each header gives a table, with the columns between its braces. -/
  tables : r.diagram.tables.map Table.name =
    (significantLines document.toList).filterMap fun l => (header? l.text).map Header.name
  columns : r.diagram.tables.map Table.outline =
    (sections (significantLines document.toList)).map Section.outline
  /-- Each reference gives a relationship, unless it leads nowhere. -/
  relationships : r.diagram.relationships =
    (linksOf (r.diagram.tables.map Table.outline) document).mapIdx s.relationship
  /-- No two diagnostics have one line, and each has the line of a role. -/
  distinct : (r.diagnostics.map Diagnostic.line).Nodup
  known : ∀ d ∈ r.diagnostics, ∃ l ∈ significantLines document.toList, d.line = l.number
  /-- What is said at a line depends on its role. -/
  header (l : Line) (h : Header) (isClosed : Bool) : (l, .header h isClosed) ∈ rolesOf document →
    complaintsAt r l = if isClosed then [] else [⟨l.number, (Fault.unclosed h.name).message⟩]
  brace (l : Line) : (l, .brace) ∈ rolesOf document → complaintsAt r l = []
  column (l : Line) (c : ColumnLine) : (l, .column c) ∈ rolesOf document → complaintsAt r l = []
  stray (l : Line) (f : Fault) : (l, .stray f) ∈ rolesOf document →
    complaintsAt r l = [⟨l.number, f.message⟩]
  ref (l : Line) (q : Ref) : (l, .ref q) ∈ rolesOf document →
    (∃ link, refLink (r.diagram.tables.map Table.outline) q = .ok link ∧ complaintsAt r l = []) ∨
      ∃ f, (f = .unknownTable ∨ f = .unknownColumn) ∧
        refLink (r.diagram.tables.map Table.outline) q = .error f ∧
          complaintsAt r l = [⟨l.number, f.message⟩]

/-- A reference that leads nowhere lacks a table or a column. -/
theorem refLink_error {tables : List Outline.Table} {q : Ref} {f : Fault}
    (h : refLink tables q = .error f) : f = .unknownTable ∨ f = .unknownColumn := by
  unfold refLink at h
  split at h
  · split at h
    · cases h
    · exact .inr (Except.error.inj h).symm
  · exact .inl (Except.error.inj h).symm

/-- Nothing is lost: whatever the document, reading it accounts for each of its lines. -/
theorem accounted {s : Outline.Sheet} (hs : s.grid.columns ≠ 0) (document : String) :
    ∃ r, read s document = .ok r ∧ Accounted s document r := by
  have htables : ((draft document).outline.draw s).tables.map Table.outline = tablesOf document.toList := by
    rw [Outline.outlines_draw, tables_draft]
  refine ⟨_, read_eq hs document, ?_⟩
  have hat {p : Line × Role} (hp : p ∈ rolesOf document) := diagnostics_of_line document hp
  exact {
    lines := map_fst_roles _
    headers := header?_roles (isIdle_significantLines _)
    tables := by
      rw [← names_sections]
      have := congrArg (List.map Outline.Table.name) (htables.trans (tablesOf_eq document))
      rwa [List.map_map, List.map_map] at this
    columns := htables.trans (tablesOf_eq document)
    relationships := by
      rw [htables, ← links_draft]
      rfl
    distinct := nodup_diagnostics document
    known := by
      intro d hd
      obtain ⟨p, hp, hd⟩ := List.mem_filterMap.mp ((perm_diagnostics document).mem_iff.mp hd)
      refine ⟨p.1, ?_, line_of_complaint? p d hd⟩
      rw [← map_fst_roles (significantLines document.toList)]
      exact List.mem_map_of_mem hp
    header := by
      intro l h isClosed hl
      rw [complaintsAt, hat hl]
      cases isClosed <;> rfl
    brace := fun l hl => hat hl
    column := fun l c hl => hat hl
    stray := fun l f hl => hat hl
    ref := by
      intro l q hl
      rw [htables, complaintsAt, hat hl]
      have hc : complaint? (tablesOf document.toList) (l, .ref q) =
        (refFault? (tablesOf document.toList) (l.number, q)).map diagnosticOf := rfl
      rw [hc, refFault?]
      cases hq : refLink (tablesOf document.toList) q with
      | ok link => exact .inl ⟨link, rfl, rfl⟩
      | error f => exact .inr ⟨f, refLink_error hq, rfl, rfl⟩ }

/-- A block that a header cuts off, with a line that is no column, and a reference to no column. -/
def ruin : String := "Table a \x7b\n  n\nTable b \x7b\n  id int\n\x7d\nref: a.id < b.n"

/-- The line of the header that is cut off. -/
def ruinHeader : Line := ⟨1, "Table a \x7b".toList⟩

/-- The line of the reference to no column. -/
def ruinRef : Line := ⟨6, "ref: a.id < b.n".toList⟩

theorem accounted_ruin : ({} : Outline.Sheet).grid.columns ≠ 0 ∧ ∃ r, read {} ruin = .ok r ∧
    Accounted {} ruin r ∧ r.diagram.tables.map Table.name = ["a", "b"] ∧
      complaintsAt r ruinHeader = [⟨1, "Unclosed Table block: \"a\""⟩] ∧
        complaintsAt r ruinRef = [⟨6, "Ref references unknown column"⟩] := by
  obtain ⟨r, hr, ha⟩ := accounted (s := {}) (by decide) ruin
  refine ⟨by decide, r, hr, ha, ha.tables.trans (by decide +kernel), ?_, ?_⟩
  · exact ha.header ruinHeader ⟨"a", true⟩ false (by decide +kernel)
  · have hlink : refLink ((sections (significantLines ruin.toList)).map Section.outline)
        ⟨.oneToMany, ⟨"a", "id"⟩, ⟨"b", "n"⟩⟩ = .error .unknownColumn := by decide +kernel
    have hq := ha.ref ruinRef ⟨.oneToMany, ⟨"a", "id"⟩, ⟨"b", "n"⟩⟩ (by decide +kernel)
    rw [ha.columns, hlink] at hq
    rcases hq with ⟨link, hl, -⟩ | ⟨f, -, hf, hc⟩
    · cases hl
    · cases hf
      exact hc

end Erd.Dbml
