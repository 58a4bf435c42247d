import Erd.Dbml.Reader
import Erd.Proofs.Outline
import Erd.Proofs.Text

/-!
# What a line of a document does

Reading a document is a machine with three states: outside of blocks, in a block that waits for its brace,
and in a block whose brace is open. Blank lines and comments leave it as it is, so only the other lines
count, and what one of them does is told by the state it meets.

**Results.**
* `step_of_header`, `step_outside`, `step_waiting`, `step_inside`: what a line that counts does in each
  state.
* `entries_eq`: the entries of a document are those of the lines that count.
* `outline_draft`, `diagnostics_draft`: what a document gives, blank or not.
-/
namespace Erd.Dbml

open Text

/-! ## Lines that count -/

/-- The lines of a text that are neither blank nor comments. -/
def significantLines (s : List Char) : List Line := (numberedLines s).filter fun l => !l.isIdle

theorem isIdle_significantLines (s : List Char) : ∀ l ∈ significantLines s, l.isIdle = false := by
  intro l hl
  simpa using (List.mem_filter.mp hl).2

theorem numbers_numberedLines (s : List Char) :
    (numberedLines s).map Line.number = List.range' 1 (lines s).length := by
  refine List.ext_getElem (by simp [numberedLines]) fun i hi hi' => ?_
  simp [numberedLines, Nat.add_comm]

/-- No two lines have one number. -/
theorem nodup_numbers (s : List Char) : ((significantLines s).map Line.number).Nodup := by
  have h : ((numberedLines s).map Line.number).Nodup := by
    rw [numbers_numberedLines]
    exact List.nodup_range'
  exact h.sublist (List.filter_sublist.map Line.number)

/-! ## Steps -/

theorem step_idle (current : Option Block) {l : Line} (h : l.isIdle = true) :
    step current l = ([], current) := by
  rw [step.eq_def, if_pos h]

/-- What is wrong with a line outside of blocks that is no reference. -/
def outsideFault (text : List Char) : Fault :=
  if (refText? text).isSome then .invalidRef (String.ofList text) else .unexpected (String.ofList text)

/-- The entry of a line outside of blocks. -/
def outsideEntry (l : Line) : Entry :=
  match ref? l.text with
  | some r => .ref l.number r
  | none => .fault l.number (outsideFault l.text)

section Steps

variable {l : Line} (hi : l.isIdle = false)

include hi

/-- A header ends the block before it and starts its own, whatever the state. -/
theorem step_of_header {h : Header} (hh : header? l.text = some h) (current : Option Block) :
    step current l = (unclosed current, some ⟨h.name, l.number, h.opens, []⟩) := by
  rw [step.eq_def, hi, hh]
  rfl

theorem step_outside (hh : header? l.text = none) : step none l = ([outsideEntry l], none) := by
  rw [step.eq_def, hi, hh, outsideEntry, outsideFault]
  -- a text that is read as a reference is announced as one
  cases hr : ref? l.text with
  | some r =>
    have : (refText? l.text).isSome = true := by
      cases ht : refText? l.text with
      | some t => rfl
      | none => simp [ref?, ht] at hr
    simp [this]
  | none => by_cases ht : (refText? l.text).isSome = true <;> simp [ht]

theorem step_waiting {b : Block} (hb : b.isOpen = false) (hh : header? l.text = none) :
    step (some b) l = if l.text = ['\x7b'] then ([], some { b with isOpen := true })
      else ([.fault l.number (.braceExpected b.name)], some b) := by
  rw [step.eq_def, hi, hh]
  simp [hb]

theorem step_inside {b : Block} (hb : b.isOpen = true) (hh : header? l.text = none) :
    step (some b) l = if l.text = ['\x7d'] then ([.table b], none)
      else match ColumnLine.read l.text with
        | .ok c => ([], some (b.add c))
        | .error f => ([.fault l.number (columnFault l f)], some b) := by
  rw [step.eq_def, hi, hh]
  exact (if_neg (by decide)).trans (if_neg (by simp [hb]))

end Steps

/-! ## Documents -/

theorem entriesFrom_cons (current : Option Block) (l : Line) (ls : List Line) :
    entriesFrom current (l :: ls) = (step current l).1 ++ entriesFrom (step current l).2 ls := rfl

theorem entriesFrom_filter (current : Option Block) (ls : List Line) :
    entriesFrom current (ls.filter fun l => !l.isIdle) = entriesFrom current ls := by
  induction ls generalizing current with
  | nil => rfl
  | cons l ls ih =>
    by_cases hi : l.isIdle = true
    · rw [List.filter_cons_of_neg (by simp [hi]), ih, entriesFrom_cons, step_idle current hi]
      rfl
    · rw [List.filter_cons_of_pos (by simp [hi]), entriesFrom_cons, entriesFrom_cons, ih]

theorem entries_eq (s : List Char) : entries s = entriesFrom none (significantLines s) :=
  (entriesFrom_filter none (numberedLines s)).symm

/-- A line holds characters of its text. -/
theorem mem_of_mem_lines {s l : List Char} {c : Char} (hl : l ∈ lines s) (hc : c ∈ l) : c ∈ s := by
  fun_induction lines s generalizing l with
  | case1 => cases hl
  | case2 s ih =>
    rcases List.mem_cons.mp hl with rfl | hl
    · cases hc
    · exact List.mem_cons_of_mem _ (List.mem_cons_of_mem _ (ih hl hc))
  | case3 d s _ _ ih =>
    rcases List.mem_cons.mp hl with rfl | hl
    · cases hc
    · exact List.mem_cons_of_mem d (ih hl hc)
  | case4 d s _ _ line rest he ih =>
    rw [he] at ih
    rcases List.mem_cons.mp hl with rfl | hl
    · rcases List.mem_cons.mp hc with rfl | hc
      · exact List.mem_cons_self
      · exact List.mem_cons_of_mem d (ih List.mem_cons_self hc)
    · exact List.mem_cons_of_mem d (ih (List.mem_cons_of_mem line hl) hc)
  | case5 d s _ _ he ih =>
    rw [List.mem_singleton.mp hl] at hc
    rw [List.mem_singleton.mp hc]
    exact List.mem_cons_self

/-- A blank text has no line that counts. -/
theorem significantLines_blank {s : List Char} (h : isBlankText s = true) : significantLines s = [] := by
  refine List.filter_eq_nil_iff.mpr fun l hl => ?_
  obtain ⟨i, hi, rfl⟩ := List.mem_mapIdx.mp hl
  have hb : ∀ c ∈ (lines s)[i], isBlank c = true := fun c hc =>
    List.all_eq_true.mp h c (mem_of_mem_lines (List.getElem_mem hi) hc)
  have ht : trim (lines s)[i] = [] := by
    rw [trim, trimStart, List.dropWhile_eq_nil_iff.mpr hb]
    rfl
  simp [ht, Line.isIdle]

/-! ## References -/

theorem hasTable_of_place? {tables : List Outline.Table} {e : ColumnName} {p : Outline.Place}
    (h : place? tables e = some p) : hasTable tables e.table = true := by
  obtain ⟨q, hq, -⟩ := Option.bind_eq_some_iff.mp h
  rw [hasTable, hq]
  rfl

/-- A reference is linked if and only if both of its ends are found. -/
theorem refLink_isOk_iff {tables : List Outline.Table} {r : Ref} :
    (∃ l, refLink tables r = .ok l) ↔
      (place? tables r.source).isSome ∧ (place? tables r.target).isSome := by
  constructor
  · rintro ⟨l, h⟩
    unfold refLink at h
    split at h
    · split at h
      · next hs ht => simp [hs, ht]
      · cases h
    · cases h
  · rintro ⟨hs, ht⟩
    obtain ⟨p, hp⟩ := Option.isSome_iff_exists.mp hs
    obtain ⟨q, hq⟩ := Option.isSome_iff_exists.mp ht
    rw [refLink, if_pos (by simp [hasTable_of_place? hp, hasTable_of_place? hq]), hp, hq]
    exact ⟨_, rfl⟩

/-- The fault of a reference that leads nowhere, with its line. -/
def refFault? (tables : List Outline.Table) (q : Nat × Ref) : Option (Nat × Fault) :=
  match refLink tables q.2 with
  | .ok _ => none
  | .error f => some (q.1, f)

theorem refFault?_eq_none_iff {tables : List Outline.Table} {q : Nat × Ref} :
    refFault? tables q = none ↔ ∃ l, refLink tables q.2 = .ok l := by
  unfold refFault?
  split
  · next l h => simp [h]
  · next f h => simp [h]

/-! ## Drafts -/

/-- The tables of a document. -/
def tablesOf (s : List Char) : List Outline.Table := ((entries s).filterMap Entry.block?).map Block.outline

/-- The references of a document with their lines. -/
def refsOf (s : List Char) : List (Nat × Ref) := (entries s).filterMap Entry.ref?

/-- The faults of a document with their lines: those of its lines and then those of its references. -/
def faultsOf (s : List Char) : List (Nat × Fault) :=
  (entries s).filterMap Entry.fault? ++ (refsOf s).filterMap (refFault? (tablesOf s))

/-- The diagnostic of a fault. -/
def diagnosticOf (q : Nat × Fault) : Diagnostic := ⟨q.1, q.2.message⟩

theorem entries_blank {s : List Char} (h : isBlankText s = true) : entries s = [] := by
  rw [entries_eq, significantLines_blank h]
  rfl

theorem outline_draft (document : String) : (draft document).outline = (draftOf document.toList).outline := by
  unfold draft
  split
  · next h => simp [draftOf, entries_blank h]
  · rfl

theorem tables_draft (document : String) : (draft document).outline.tables = tablesOf document.toList := by
  rw [outline_draft]
  rfl

theorem diagnostics_draft (document : String) :
    (draft document).diagnostics = (faultsOf document.toList).map diagnosticOf := by
  unfold draft
  split
  · next h => simp [faultsOf, refsOf, entries_blank h]
  · refine congrArg (fun fs => ((entries document.toList).filterMap Entry.fault? ++ fs).map diagnosticOf) ?_
    rw [List.filterMap_map]
    refine List.filterMap_congr fun q _ => ?_
    simp only [Function.comp_apply, refFault?, tablesOf]
    cases refLink (((entries document.toList).filterMap Entry.block?).map Block.outline) q.2 <;> rfl

/-- With a grid to place tables on a document is always read. -/
theorem read_eq {s : Outline.Sheet} (hs : s.grid.columns ≠ 0) (document : String) :
    read s document = .ok ⟨(draft document).outline.draw s, (draft document).diagnostics⟩ := by
  rw [read, Draft.reading_eq hs]

end Erd.Dbml
