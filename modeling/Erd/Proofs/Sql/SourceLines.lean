import Erd.Proofs.Sql.Isolation
import Mathlib.Data.List.Forall2

/-!
# Complaints have the lines of the script

A statement is found in the text without comments, and its line is counted there. That is the line of the script, since
taking out comments takes out nothing but characters of lines: no line feed goes and none is added, so each line of the
text that is left is what deleting characters leaves of the same line of the script.

**Results.**
* `thins_stripComments`: line by line, the text without comments is the script with characters deleted.
* `statementsFrom_placed`: a statement has the line on which its first character stands.
* `diagnostics_located`: each complaint has the line of the script on which its statement starts, and the complaints
  come in the order of their lines.
-/
namespace Erd.Sql

open Text

/-! ## Line by line -/

/-- Each line of `s` is what deleting characters leaves of the same line of `t`. -/
def Thins (s t : List Char) : Prop := List.Forall₂ List.Sublist (splitOn '\n' s) (splitOn '\n' t)

namespace Thins

theorem refl (s : List Char) : Thins s s := List.forall₂_same.mpr fun l _ => List.Sublist.refl l

variable {s t u : List Char}

theorem feed (h : Thins s t) : Thins ('\n' :: s) ('\n' :: t) := by
  rw [Thins, splitOn_cons_self, splitOn_cons_self]
  exact .cons .slnil h

/-- A character that is no line feed is kept or deleted in its line. -/
theorem cons_or_drop {c : Char} (hc : c ≠ '\n') (h : Thins s t) : Thins (c :: s) (c :: t) ∧ Thins s (c :: t) := by
  obtain ⟨p, ps, hp⟩ := List.exists_cons_of_ne_nil (splitOn_ne_nil '\n' s)
  obtain ⟨q, qs, hq⟩ := List.exists_cons_of_ne_nil (splitOn_ne_nil '\n' t)
  rw [Thins, hp, hq] at h
  cases h with
  | cons hpq hrest =>
    rw [Thins, Thins, splitOn_cons_of_ne hc hp, splitOn_cons_of_ne hc hq, hp]
    exact ⟨.cons (hpq.cons_cons c) hrest, .cons (hpq.cons c) hrest⟩

theorem drop {c : Char} (hc : c ≠ '\n') (h : Thins s t) : Thins s (c :: t) := (h.cons_or_drop hc).2

theorem cons (c : Char) (h : Thins s t) : Thins (c :: s) (c :: t) := by
  by_cases hc : c = '\n'
  · rw [hc]
    exact h.feed
  · exact (h.cons_or_drop hc).1

theorem trans (h : Thins s t) (h' : Thins t u) : Thins s u := by
  refine List.forall₂_iff_get.mpr ⟨h.length_eq.trans h'.length_eq, fun i hs hu => ?_⟩
  have ht : i < (splitOn '\n' t).length := h.length_eq ▸ hs
  exact (h.get hs ht).trans (h'.get ht hu)

theorem getElem? {i : Nat} {l : List Char} (h : Thins s t) (hl : (splitOn '\n' s)[i]? = some l) :
    ∃ m, (splitOn '\n' t)[i]? = some m ∧ l.Sublist m := by
  obtain ⟨hi, rfl⟩ := List.getElem?_eq_some_iff.mp hl
  have ht : i < (splitOn '\n' t).length := h.length_eq ▸ hi
  exact ⟨_, List.getElem?_eq_getElem ht, h.get hi ht⟩

end Thins

theorem thins_dropBlocksFrom (inside : Bool) (s : List Char) : Thins (dropBlocksFrom inside s) s := by
  fun_induction dropBlocksFrom inside s with
  | case1 => exact .refl []
  | case2 s _ ih => exact (ih.drop (by decide)).drop (by decide)
  | case3 s _ => exact .refl _
  | case4 c s _ ih => exact ih.cons c
  | case5 s ih => exact (ih.drop (by decide)).drop (by decide)
  | case6 s _ ih => exact ih.feed
  | case7 c s _ hc ih => exact ih.drop hc

theorem thins_dropLineCommentsFrom (inside : Bool) (s : List Char) : Thins (dropLineCommentsFrom inside s) s := by
  fun_induction dropLineCommentsFrom inside s with
  | case1 => exact .refl []
  | case2 s ih => exact (ih.drop (by decide)).drop (by decide)
  | case3 c s _ ih => exact ih.cons c
  | case4 s ih => exact ih.feed
  | case5 c s hc ih => exact ih.drop hc

theorem thins_stripComments (s : List Char) : Thins (stripComments s) s :=
  (thins_dropLineCommentsFrom false _).trans (thins_dropBlocksFrom false s)

/-! ## Lines of characters -/

theorem prefix_of_splitOn {sep : Char} {v r : List Char} {rs : List (List Char)} (h : splitOn sep v = r :: rs) :
    r <+: v := by
  have hv := join_splitOn sep v
  rw [h] at hv
  rw [← hv]
  cases rs with
  | nil => exact List.prefix_refl r
  | cons q qs => exact List.prefix_append r _

/-- A character stands on the line with as many line feeds before it, between the rest of the text before it and the
start of the text behind it. -/
theorem exists_line (u : List Char) {c : Char} (hc : c ≠ '\n') (v : List Char) :
    ∃ l r, (splitOn '\n' (u ++ c :: v))[newlines u]? = some (l ++ c :: r) ∧ (newlines u = 0 → l = u) ∧
      l <:+ u ∧ r <+: v := by
  induction u with
  | nil =>
    obtain ⟨r, rs, hr⟩ := List.exists_cons_of_ne_nil (splitOn_ne_nil '\n' v)
    refine ⟨[], r, ?_, fun _ => rfl, List.suffix_refl [], prefix_of_splitOn hr⟩
    rw [List.nil_append, splitOn_cons_of_ne hc hr]
    rfl
  | cons d u ih =>
    obtain ⟨l, r, hget, hall, hl, hr⟩ := ih
    by_cases hd : d = '\n'
    · subst hd
      have hcount : newlines ('\n' :: u) = newlines u + 1 := List.count_cons_self
      refine ⟨l, r, ?_, fun h => by omega, hl.trans (List.suffix_cons _ u), hr⟩
      rw [List.cons_append, splitOn_cons_self, hcount, List.getElem?_cons_succ, hget]
    · have hcount : newlines (d :: u) = newlines u := List.count_cons_of_ne hd
      obtain ⟨p, ps, hp⟩ := List.exists_cons_of_ne_nil (splitOn_ne_nil '\n' (u ++ c :: v))
      rw [hp] at hget
      rw [List.cons_append, splitOn_cons_of_ne hd hp, hcount]
      cases hn : newlines u with
      | zero =>
        -- the line starts with the text, so that the character belongs to it
        rw [hn, List.getElem?_cons_zero, Option.some_inj] at hget
        obtain rfl := hall hn
        exact ⟨d :: l, r, by rw [hget]; rfl, fun _ => rfl, List.suffix_refl _, hr⟩
      | succ n =>
        rw [hn, List.getElem?_cons_succ] at hget
        exact ⟨l, r, hget, fun h => absurd h (by omega), hl.trans (List.suffix_cons d u), hr⟩

/-! ## Statements -/

/-- A piece of a script between semicolons, with the text before it. -/
structure Piece where
  before : List Char
  text : List Char
  deriving DecidableEq, Repr

/-- Pieces with the text before each, the first of them behind `before`. -/
def placed (before : List Char) : List (List Char) → List Piece
  | [] => []
  | t :: ts => ⟨before, t⟩ :: placed (before ++ (t ++ [';'])) ts

namespace Piece

/-- The text before the first character of a piece that is not blank. -/
def lead (p : Piece) : List Char := p.before ++ p.text.takeWhile isBlank

/-- The line of that character. -/
def line (p : Piece) : Nat := newlines p.lead + 1

/-- What is wrong with the statement of a piece. -/
def fault? (p : Piece) : Option StatementFault :=
  match TableDefinition.read (trim p.text) with
  | .ok _ => none
  | .error f => some f

/-- The complaint about a piece. -/
def complaint? (d : Dialect) (p : Piece) : Option Diagnostic := p.fault?.map fun f => complaint d (p.line, f)

end Piece

/-- The pieces of a script without its comments that are not blank. -/
def pieces (script : List Char) : List Piece :=
  (placed [] (splitOn ';' (stripComments script))).filter fun p => !isBlankText p.text

theorem statementsFrom_placed (before : List Char) (ts : List (List Char)) :
    statementsFrom (newlines before + 1) ts =
      ((placed before ts).filter fun p => !isBlankText p.text).map fun p => ⟨p.line, trim p.text⟩ := by
  induction ts generalizing before with
  | nil => rfl
  | cons t ts ih =>
    have hnext : newlines (before ++ (t ++ [';'])) + 1 = newlines before + 1 + newlines t := by
      rw [newlines_append, newlines_append]
      exact (Nat.add_right_comm ..).trans rfl
    have hline : Piece.line ⟨before, t⟩ = newlines before + 1 + newlines (t.takeWhile isBlank) := by
      rw [Piece.line, Piece.lead, newlines_append, Nat.add_right_comm]
    rw [statementsFrom, ← hnext, ih, placed, List.filter_cons]
    cases isBlankText t with
    | true => rfl
    | false =>
      simp only [Bool.not_false, if_true, List.map_cons, hline]
      rfl

/-- A piece stands in the text behind what stands before it. -/
theorem exists_of_mem_placed {before : List Char} {ts : List (List Char)} {p : Piece} (h : p ∈ placed before ts) :
    ∃ after, before ++ join ';' ts = p.before ++ (p.text ++ after) := by
  induction ts generalizing before with
  | nil => cases h
  | cons t ts ih =>
    rcases List.mem_cons.mp h with rfl | h
    · cases ts with
      | nil => exact ⟨[], by rw [List.append_nil]; rfl⟩
      | cons u us => exact ⟨';' :: join ';' (u :: us), rfl⟩
    · cases ts with
      | nil => cases h
      | cons u us =>
        obtain ⟨after, ha⟩ := ih h
        refine ⟨after, ?_⟩
        rw [← ha, join, List.append_assoc, List.append_assoc, List.singleton_append]
        exact fun hnil => List.cons_ne_nil u us hnil

/-- The first character of a piece that is not blank, in its place in the text. -/
theorem exists_of_mem_pieces {script : List Char} {p : Piece} (h : p ∈ pieces script) :
    ∃ c rest after, isBlank c = false ∧ trimStart p.text = c :: rest ∧
      stripComments script = p.lead ++ c :: (rest ++ after) := by
  obtain ⟨hp, hb⟩ := List.mem_filter.mp h
  obtain ⟨after, ha⟩ := exists_of_mem_placed hp
  have htext := trimStart_eq p.text
  have hhead := List.head?_dropWhile_not isBlank p.text
  rw [← trimStart] at hhead
  cases hs : trimStart p.text with
  | nil =>
    rw [isBlankText, List.all_eq_true.mpr fun c hc => ?_] at hb
    · cases hb
    · rw [hs, List.append_nil] at htext
      exact List.mem_takeWhile_imp (htext ▸ hc)
  | cons c rest =>
    rw [hs] at hhead htext
    refine ⟨c, rest, after, by simpa using hhead, rfl, ?_⟩
    calc stripComments script = p.before ++ (p.text ++ after) := by rw [← ha, List.nil_append, join_splitOn]
      _ = p.before ++ (p.text.takeWhile isBlank ++ c :: rest ++ after) := by rw [← htext]
      _ = p.lead ++ c :: (rest ++ after) := by simp [Piece.lead]

theorem prefix_before_placed {before : List Char} {ts : List (List Char)} :
    ∀ p ∈ placed before ts, before <+: p.before := by
  induction ts generalizing before with
  | nil => exact List.forall_mem_nil _
  | cons t ts ih =>
    exact List.forall_mem_cons.mpr ⟨List.prefix_refl before, fun p hp => (List.prefix_append before _).trans (ih p hp)⟩

theorem newlines_mono {s t : List Char} (h : s <+: t) : newlines s ≤ newlines t := h.sublist.count_le _

/-- Later pieces do not start on earlier lines. -/
theorem pairwise_placed (before : List Char) (ts : List (List Char)) :
    ((placed before ts).map Piece.line).Pairwise (· ≤ ·) := by
  induction ts generalizing before with
  | nil => exact .nil
  | cons t ts ih =>
    refine List.Pairwise.cons (List.forall_mem_map.mpr fun p hp => Nat.succ_le_succ ?_) (ih _)
    have hlead : Piece.lead ⟨before, t⟩ <+: before ++ (t ++ [';']) :=
      (List.prefix_append_right_inj before).mpr ((List.takeWhile_prefix isBlank).trans (List.prefix_append t [';']))
    exact newlines_mono (hlead.trans ((prefix_before_placed p hp).trans (List.prefix_append _ _)))

theorem pairwise_pieces (script : List Char) : ((pieces script).map Piece.line).Pairwise (· ≤ ·) :=
  (pairwise_placed [] _).sublist (List.filter_sublist.map Piece.line)

/-! ## Complaints -/

theorem diagnostics_eq (d : Dialect) (script : String) :
    (draft d script).diagnostics = (pieces script.toList).filterMap (Piece.complaint? d) := by
  have hstatements : statements script.toList = (pieces script.toList).map fun p => ⟨p.line, trim p.text⟩ :=
    statementsFrom_placed [] _
  rw [diagnostics_draft, faultsOf, outcomes, hstatements, List.map_map, List.filterMap_map, List.map_filterMap]
  refine List.filterMap_congr fun p _ => ?_
  simp only [Function.comp_apply, Outcome.fault?, Piece.complaint?, Piece.fault?]
  cases TableDefinition.read (trim p.text) <;> rfl

/-- A complaint about a piece of a script has the line on which the first character of the piece that is not blank
stands: in the script that line holds, among the characters that comments have taken, the end of the text before it, the
character itself and the start of the text behind it. -/
structure Located (script : List Char) (d : Dialect) (p : Piece) (e : Diagnostic) : Prop where
  about : ∃ f, p.fault? = some f ∧ e.message = f.message d e.line
  first : 1 ≤ e.line
  last : e.line ≤ newlines script + 1
  starts : ∃ c rest after, isBlank c = false ∧ trimStart p.text = c :: rest ∧
    stripComments script = p.lead ++ c :: (rest ++ after) ∧ e.line = newlines p.lead + 1 ∧
      ∃ l r line, (splitOn '\n' script)[e.line - 1]? = some line ∧ l <:+ p.lead ∧ r <+: rest ++ after ∧
        (l ++ c :: r).Sublist line

theorem located_of_complaint? {script : List Char} {d : Dialect} {p : Piece} (hp : p ∈ pieces script) {e : Diagnostic}
    (he : p.complaint? d = some e) : Located script d p e := by
  obtain ⟨f, hf, rfl⟩ := Option.map_eq_some_iff.mp he
  obtain ⟨c, rest, after, hc, hrest, hstrip⟩ := exists_of_mem_pieces hp
  have hfeed : c ≠ '\n' := by
    rintro rfl
    exact absurd hc (by decide)
  obtain ⟨l, r, hget, -, hl, hr⟩ := exists_line p.lead hfeed (rest ++ after)
  rw [← hstrip] at hget
  obtain ⟨line, hline, hsub⟩ := (thins_stripComments script).getElem? hget
  refine ⟨⟨f, hf, rfl⟩, Nat.le_add_left 1 _, Nat.succ_le_succ ?_, ?_⟩
  · rw [← newlines_stripComments script, hstrip]
    exact newlines_mono (List.prefix_append p.lead _)
  · exact ⟨c, rest, after, hc, hrest, hstrip, rfl, l, r, line, hline, hl, hr, hsub⟩

/-- The pieces of a script that give no table. -/
def offenders (script : List Char) : List Piece := (pieces script).filter fun p => p.fault?.isSome

/-- Where something is picked from the elements that a test passes and from no others, it corresponds to them. -/
theorem forall₂_filter_filterMap {α β : Type} {R : α → β → Prop} {f : α → Option β} {q : α → Bool}
    (hq : ∀ a, q a = (f a).isSome) {l : List α} (hR : ∀ a ∈ l, ∀ b, f a = some b → R a b) :
    List.Forall₂ R (l.filter q) (l.filterMap f) := by
  induction l with
  | nil => exact .nil
  | cons a l ih =>
    obtain ⟨ha, hl⟩ := List.forall_mem_cons.mp hR
    rw [List.filter_cons, List.filterMap_cons, hq]
    cases hf : f a with
    | none => exact ih hl
    | some b => exact .cons (ha b hf) (ih hl)

theorem located_diagnostics (d : Dialect) (script : String) :
    List.Forall₂ (Located script.toList d) (offenders script.toList) (draft d script).diagnostics := by
  rw [diagnostics_eq]
  refine forall₂_filter_filterMap (fun p => ?_) fun p hp e he => located_of_complaint? hp he
  rw [Piece.complaint?, Option.isSome_map]

theorem pairwise_diagnostics (d : Dialect) (script : String) :
    ((draft d script).diagnostics.map Diagnostic.line).Pairwise (· ≤ ·) := by
  rw [diagnostics_eq]
  refine (pairwise_pieces script.toList).sublist (map_filterMap_sublist (fun p e he => ?_) _)
  obtain ⟨f, -, rfl⟩ := Option.map_eq_some_iff.mp he
  rfl

/-- The complaints of a reading are those of its draft. -/
theorem diagnostics_of_reading {d : Draft} {s : Outline.Sheet} {r : Reading} (h : d.reading s = .ok r) :
    r.diagnostics = d.diagnostics := by
  unfold Draft.reading at h
  split at h
  · cases h
    rfl
  · cases h

/-- Taking out comments keeps every line feed and deletes nothing but characters of lines. So every statement that gives
no table has one complaint, with the line of the script on which it starts, and the complaints come in the order of
their lines. -/
theorem diagnostics_located (d : Dialect) (script : String) :
    newlines (stripComments script.toList) = newlines script.toList ∧
      Thins (stripComments script.toList) script.toList ∧
      ∀ s : Outline.Sheet, (s.grid.columns ≠ 0 → ∃ r, read s d script = .ok r) ∧
        ∀ r, read s d script = .ok r →
          List.Forall₂ (Located script.toList d) (offenders script.toList) r.diagnostics ∧
            (r.diagnostics.map Diagnostic.line).Pairwise (· ≤ ·) := by
  refine ⟨newlines_stripComments _, thins_stripComments _, fun s => ⟨fun hs => ⟨_, read_eq d script hs⟩, ?_⟩⟩
  intro r hr
  rw [diagnostics_of_reading hr]
  exact ⟨located_diagnostics d script, pairwise_diagnostics d script⟩

/-- Comments on lines of their own and within a statement, and two statements that define no table. -/
def remarks : String := "-- a; b\n/* c\nd */ DROP /* e\n*/ TABLE t;\n\nCREATE TABLE u (id INT);\n--\nCREATE TABLE v (id INT"

theorem diagnostics_located_remarks :
    Thins (stripComments remarks.toList) remarks.toList ∧ ({} : Outline.Sheet).grid.columns ≠ 0 ∧
      ∃ r, read {} .sqlite remarks = .ok r ∧
        List.Forall₂ (Located remarks.toList .sqlite) (offenders remarks.toList) r.diagnostics ∧
          (r.diagnostics.map Diagnostic.line).Pairwise (· ≤ ·) ∧ r.diagnostics.map Diagnostic.line = [3, 8] := by
  have hs : ({} : Outline.Sheet).grid.columns ≠ 0 := by decide
  obtain ⟨-, hthins, hread⟩ := diagnostics_located .sqlite remarks
  obtain ⟨r, hr⟩ := (hread {}).1 hs
  obtain ⟨hlocated, hsorted⟩ := (hread {}).2 r hr
  refine ⟨hthins, hs, r, hr, hlocated, hsorted, ?_⟩
  rw [diagnostics_of_reading hr]
  decide +kernel

end Erd.Sql
