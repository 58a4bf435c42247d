import Erd.Proofs.Sql.Isolation

/-!
# Line comments leave no trace

Taking out comments looks at most at two characters at a time, so a text before a blank is worked off as if nothing
followed, but for one thing: a block is only opened if an end of it follows somewhere. A comment of one line without the
marks of blocks changes nothing in that, so both rounds come to it in the state in which they come to the line feed
that stands in its place: within a block, where it goes in the first round with all but the line feed, within a line
comment or outside, where it goes in the second. What is left of the script is the same text, not only one that is read
alike.

**Results.**
* `dropBlocksFrom_append`, `exists_dropLineCommentsFrom`: each round after a text that stands before a blank.
* `stripComments_lineComment`: with a line comment and without it a script is left the same.
* `read_lineComment`: so it is read the same.
-/
namespace Erd.Sql

open Text

/-! ## Blocks -/

/-- A character that is no part of a mark. -/
structure Parts (w : Char) : Prop where
  ne_star : w ≠ '*'
  ne_slash : w ≠ '/'
  ne_hyphen : w ≠ '-'

theorem parts_of_isBlank {w : Char} (h : isBlank w = true) : Parts w := by
  refine ⟨?_, ?_, ?_⟩ <;> rintro rfl <;> revert h <;> decide

/-- Such a character keeps what stands on its two sides apart. -/
theorem closesBlock_append {w : Char} (hw : Parts w) (s t : List Char) :
    closesBlock (s ++ w :: t) = (closesBlock s || closesBlock t) := by
  rw [Bool.eq_iff_iff, Bool.or_eq_true, closesBlock_iff, closesBlock_iff, closesBlock_iff]
  refine ⟨pair_infix_append hw.ne_star.symm hw.ne_slash.symm, ?_⟩
  rintro (h | h)
  · exact h.trans (List.prefix_append s (w :: t)).isInfix
  · exact h.trans ((List.suffix_cons w t).trans (List.suffix_append s (w :: t))).isInfix

/-- What the first round leaves of a text that stands before another, and whether it ends within a block. `closes` tells
whether the other holds the end of one. -/
def blocksBefore (closes : Bool) : (inside : Bool) → List Char → List Char × Bool
  | inside, [] => ([], inside)
  | false, '/' :: '*' :: s => if closesBlock s || closes then blocksBefore closes true s else ('/' :: '*' :: s, false)
  | false, c :: s => (c :: (blocksBefore closes false s).1, (blocksBefore closes false s).2)
  | true, '*' :: '/' :: s => blocksBefore closes false s
  | true, c :: s =>
    if c = '\n' then ('\n' :: (blocksBefore closes true s).1, (blocksBefore closes true s).2)
    else blocksBefore closes true s

/-- Without the end of a block no block is opened. -/
theorem dropBlocksFrom_of_not_closes {t : List Char} (h : closesBlock t = false) : dropBlocksFrom false t = t := by
  have hcons {c : Char} {s : List Char} (hs : closesBlock (c :: s) = false) : closesBlock s = false := by
    rw [← Bool.not_eq_true, closesBlock_iff] at hs ⊢
    exact fun hi => hs (List.infix_cons hi)
  generalize hi : false = inside
  fun_induction dropBlocksFrom inside t with
  | case1 => rfl
  | case2 s hc => exact absurd hc (by simp [hcons (hcons h)])
  | case3 s hc => rfl
  | case4 c s hne ih => rw [ih (hcons h) rfl]
  | case5 | case6 | case7 => cases hi

/-- Two characters that no mark parts stand side by side in a text before a blank as they do in it alone. -/
theorem not_pair_append {w : Char} {s : List Char} {a b : Char} (hw : w ≠ b) {c : Char}
    (h : ∀ r, c = a → s = b :: r → False) (t : List Char) : ∀ r, c = a → s ++ w :: t = b :: r → False := by
  intro r hc hs
  cases s with
  | nil => exact hw (List.cons.inj hs).1
  | cons d s => exact h s hc (by rw [(List.cons.inj hs).1])

theorem dropBlocksFrom_append {w : Char} (hw : Parts w) (inside : Bool) (s t : List Char) :
    dropBlocksFrom inside (s ++ w :: t) = (blocksBefore (closesBlock t) inside s).1 ++
      dropBlocksFrom (blocksBefore (closesBlock t) inside s).2 (w :: t) := by
  fun_induction blocksBefore (closesBlock t) inside s with
  | case1 => rfl
  | case2 s hc ih =>
    rw [List.cons_append, List.cons_append, dropBlocksFrom, closesBlock_append hw, if_pos hc, ih]
  | case3 s hc =>
    have ht : closesBlock (w :: t) = false := (closesBlock_append hw [] t).trans (by simp_all [closesBlock])
    rw [List.cons_append, List.cons_append, dropBlocksFrom, closesBlock_append hw, if_neg hc,
      dropBlocksFrom_of_not_closes ht]
    rfl
  | case4 c s hne ih =>
    rw [List.cons_append, dropBlocksFrom, ih]
    · rfl
    · exact not_pair_append hw.ne_star hne t
  | case5 s ih => rw [List.cons_append, List.cons_append, dropBlocksFrom, ih]
  | case6 s hne ih =>
    rw [List.cons_append, dropBlocksFrom, if_pos rfl, ih]
    · rfl
    · exact not_pair_append hw.ne_slash hne t
  | case7 c s hne hc ih =>
    rw [List.cons_append, dropBlocksFrom, if_neg hc, ih]
    exact not_pair_append hw.ne_slash hne t

theorem dropBlocksFrom_cons_false {w : Char} (hw : Parts w) (t : List Char) :
    dropBlocksFrom false (w :: t) = w :: dropBlocksFrom false t := by
  rw [dropBlocksFrom]
  exact fun _ hc => absurd hc hw.ne_slash

theorem dropBlocksFrom_cons_true {w : Char} (hw : Parts w) (t : List Char) :
    dropBlocksFrom true (w :: t) = (if w = '\n' then ['\n'] else []) ++ dropBlocksFrom true t := by
  rw [dropBlocksFrom]
  · split <;> rfl
  · exact fun _ hc => absurd hc hw.ne_star

/-- A line of text without the marks of blocks. -/
structure Markless (x : List Char) : Prop where
  oneLine : '\n' ∉ x
  opens : ¬ ['/', '*'] <:+: x
  closes : ¬ ['*', '/'] <:+: x

theorem Markless.tail {c : Char} {x : List Char} (h : Markless (c :: x)) : Markless x :=
  ⟨fun hm => h.oneLine (List.mem_cons_of_mem c hm), fun hi => h.opens (List.infix_cons hi),
    fun hi => h.closes (List.infix_cons hi)⟩

theorem blocksBefore_markless {x : List Char} (h : Markless x) (closes inside : Bool) :
    blocksBefore closes inside x = (if inside then [] else x, inside) := by
  induction x with
  | nil => cases inside <;> rfl
  | cons c x ih =>
    have hnil : c ≠ '\n' := fun hc => h.oneLine (hc ▸ List.mem_cons_self)
    cases inside with
    | true =>
      rw [blocksBefore, if_neg hnil, ih h.tail]
      · rfl
      · rintro r rfl rfl
        exact h.closes (List.prefix_append ['*', '/'] r).isInfix
    | false =>
      rw [blocksBefore, ih h.tail]
      · rfl
      · rintro r rfl rfl
        exact h.opens (List.prefix_append ['/', '*'] r).isInfix

/-- Within a block such a line is dropped, and outside it stays. -/
theorem dropBlocksFrom_markless {x : List Char} (h : Markless x) (inside : Bool) (t : List Char) :
    dropBlocksFrom inside (x ++ '\n' :: t) = (if inside then [] else x) ++ dropBlocksFrom inside ('\n' :: t) := by
  rw [dropBlocksFrom_append (parts_of_isBlank (by decide)), blocksBefore_markless h]

/-! ## Lines -/

/-- The second round after a text that stands before a blank. -/
theorem exists_dropLineCommentsFrom {w : Char} (hw : Parts w) (inside : Bool) (s : List Char) :
    ∃ p j, ∀ t, dropLineCommentsFrom inside (s ++ w :: t) = p ++ dropLineCommentsFrom j t := by
  fun_induction dropLineCommentsFrom inside s with
  | case1 inside =>
    cases inside with
    | false =>
      refine ⟨[w], false, fun t => ?_⟩
      rw [List.nil_append, dropLineCommentsFrom]
      · rfl
      · exact fun _ hc => absurd hc hw.ne_hyphen
    | true =>
      by_cases hc : w = '\n'
      · exact ⟨['\n'], false, fun t => by rw [List.nil_append, dropLineCommentsFrom, if_pos hc]; rfl⟩
      · exact ⟨[], true, fun t => by rw [List.nil_append, dropLineCommentsFrom, if_neg hc]; rfl⟩
  | case2 s ih =>
    obtain ⟨p, j, h⟩ := ih
    exact ⟨p, j, fun t => by rw [List.cons_append, List.cons_append, dropLineCommentsFrom, h]⟩
  | case3 c s hne ih =>
    obtain ⟨p, j, h⟩ := ih
    refine ⟨c :: p, j, fun t => ?_⟩
    rw [List.cons_append, dropLineCommentsFrom, h]
    · rfl
    · exact not_pair_append hw.ne_hyphen hne t
  | case4 s ih =>
    obtain ⟨p, j, h⟩ := ih
    exact ⟨'\n' :: p, j, fun t => by rw [List.cons_append, dropLineCommentsFrom, if_pos rfl, h]; rfl⟩
  | case5 c s hc ih =>
    obtain ⟨p, j, h⟩ := ih
    exact ⟨p, j, fun t => by rw [List.cons_append, dropLineCommentsFrom, if_neg hc, h]⟩

theorem dropLineCommentsFrom_inside {x : List Char} (h : '\n' ∉ x) (t : List Char) :
    dropLineCommentsFrom true (x ++ '\n' :: t) = '\n' :: dropLineCommentsFrom false t := by
  induction x with
  | nil => rw [List.nil_append, dropLineCommentsFrom, if_pos rfl]
  | cons c x ih =>
    obtain ⟨hc, hx⟩ := not_or.mp (mt List.mem_cons.mpr h)
    rw [List.cons_append, dropLineCommentsFrom, if_neg (Ne.symm hc), ih hx]

/-- A line comment goes with all but the line feed, within another one as outside. -/
theorem dropLineCommentsFrom_comment {x : List Char} (h : '\n' ∉ x) (inside : Bool) (t : List Char) :
    dropLineCommentsFrom inside ('-' :: '-' :: x ++ '\n' :: t) = dropLineCommentsFrom inside ('\n' :: t) := by
  cases inside with
  | true =>
    have hx : '\n' ∉ '-' :: '-' :: x := by simpa using h
    rw [dropLineCommentsFrom_inside hx, dropLineCommentsFrom, if_pos rfl]
  | false =>
    rw [List.cons_append, List.cons_append, dropLineCommentsFrom, dropLineCommentsFrom_inside h, dropLineCommentsFrom]
    exact fun _ hc => absurd hc (by decide)

/-! ## Scripts -/

/-- There is no text, or it ends in a character that is no part of a mark. -/
def EndsApart (a : List Char) : Prop := a = [] ∨ ∃ s w, a = s ++ [w] ∧ Parts w

theorem endsApart_of_isBlank {a : List Char} (h : ∀ w ∈ a.getLast?, isBlank w = true) : EndsApart a := by
  rcases List.eq_nil_or_concat a with ha | ⟨s, w, rfl⟩
  · exact .inl ha
  · exact .inr ⟨s, w, List.concat_eq_append, parts_of_isBlank (h w (by simp))⟩

section Comment

variable {a x : List Char} (ha : EndsApart a) (b : List Char)

include ha

/-- In the second round the comment leaves no trace. -/
theorem dropLineComments_comment (h : '\n' ∉ x) :
    dropLineComments (a ++ ('-' :: '-' :: x ++ '\n' :: b)) = dropLineComments (a ++ '\n' :: b) := by
  have hcomment (inside : Bool) := dropLineCommentsFrom_comment h inside b
  rcases ha with rfl | ⟨s, w, rfl, hw⟩
  · exact hcomment false
  · obtain ⟨p, j, hp⟩ := exists_dropLineCommentsFrom hw false s
    rw [dropLineComments, dropLineComments, List.append_assoc, List.append_assoc, List.singleton_append,
      List.singleton_append, hp, hp, hcomment]

/-- In the first round the comment leaves no trace or stands where it stood, behind what is no part of a mark. -/
theorem dropBlocks_comment (h : Markless ('-' :: '-' :: x)) :
    dropBlocks (a ++ ('-' :: '-' :: x ++ '\n' :: b)) = dropBlocks (a ++ '\n' :: b) ∨
      ∃ p q, EndsApart p ∧ dropBlocks (a ++ ('-' :: '-' :: x ++ '\n' :: b)) = p ++ ('-' :: '-' :: x ++ '\n' :: q) ∧
        dropBlocks (a ++ '\n' :: b) = p ++ '\n' :: q := by
  have hfeed : Parts '\n' := parts_of_isBlank (by decide)
  have hcomment (inside : Bool) := dropBlocksFrom_markless h inside b
  rw [dropBlocks, dropBlocks]
  rcases ha with rfl | ⟨s, w, rfl, hw⟩
  · refine .inr ⟨[], dropBlocksFrom false b, .inl rfl, ?_, dropBlocksFrom_cons_false hfeed b⟩
    exact (hcomment false).trans (by rw [dropBlocksFrom_cons_false hfeed]; rfl)
  · -- whether the end of a block follows is told by what stands behind the comment
    have hcloses : closesBlock ('-' :: '-' :: x ++ '\n' :: b) = closesBlock ('\n' :: b) := by
      rw [closesBlock_append hfeed, ← List.nil_append ('\n' :: b), closesBlock_append hfeed]
      rw [Bool.eq_false_iff.mpr (mt closesBlock_iff.mp h.closes), closesBlock]
    have hround (t : List Char) := dropBlocksFrom_append hw false s t
    simp only [List.append_assoc, List.singleton_append, hround, hcloses]
    generalize blocksBefore (closesBlock ('\n' :: b)) false s = left
    obtain ⟨p, inside⟩ := left
    cases inside with
    | true =>
      left
      simp only [dropBlocksFrom_cons_true hw, hcomment]
      rfl
    | false =>
      refine .inr ⟨p ++ [w], dropBlocksFrom false b, .inr ⟨p, w, rfl, hw⟩, ?_, ?_⟩
      · simp only [dropBlocksFrom_cons_false hw, hcomment, dropBlocksFrom_cons_false hfeed]
        simp
      · simp only [dropBlocksFrom_cons_false hw, dropBlocksFrom_cons_false hfeed]
        simp

end Comment

theorem stripComments_lineComment {a x : List Char} (ha : EndsApart a) (h : Markless ('-' :: '-' :: x)) (b : List Char) :
    stripComments (a ++ ('-' :: '-' :: x ++ '\n' :: b)) = stripComments (a ++ '\n' :: b) := by
  have hx : '\n' ∉ x := h.tail.tail.oneLine
  rcases dropBlocks_comment ha b h with heq | ⟨p, q, hp, hwith, hwithout⟩
  · rw [stripComments, stripComments, heq]
  · rw [stripComments, stripComments, hwith, hwithout, dropLineComments_comment hp q hx]

/-- Two hyphens make no mark of a block with what follows them. -/
theorem Markless.comment {x : List Char} (h : Markless x) : Markless ('-' :: '-' :: x) := by
  have hpair {m n : Char} (hm : m ≠ '-') (hi : ¬ [m, n] <:+: x) : ¬ [m, n] <:+: '-' :: '-' :: x := by
    rw [List.infix_cons_iff, List.infix_cons_iff]
    rintro (hp | hp | hp)
    · exact hm (List.cons_prefix_cons.mp hp).1
    · exact hm (List.cons_prefix_cons.mp hp).1
    · exact hi hp
  exact ⟨by simpa using h.oneLine, hpair (by decide) h.opens, hpair (by decide) h.closes⟩

/-- What a script comes to is told by what is left of it without comments. -/
theorem outcomes_congr {s t : List Char} (h : stripComments s = stripComments t) : outcomes s = outcomes t := by
  rw [outcomes, outcomes, statements, statements, h]

/-- A line comment behind a blank can stand anywhere in a script, within other comments too: it is read as the line feed
that ends it. -/
theorem read_lineComment (d : Dialect) {a x : String} (ha : ∀ w ∈ a.toList.getLast?, isBlank w = true)
    (hx : Markless x.toList) (b : String) :
    (draft d (a ++ "--" ++ x ++ "\n" ++ b)).outline = (draft d (a ++ "\n" ++ b)).outline ∧
      (draft d (a ++ "--" ++ x ++ "\n" ++ b)).diagnostics = (draft d (a ++ "\n" ++ b)).diagnostics ∧
        ∀ s, read s d (a ++ "--" ++ x ++ "\n" ++ b) = read s d (a ++ "\n" ++ b) := by
  have hwith : (a ++ "--" ++ x ++ "\n" ++ b).toList = a.toList ++ ('-' :: '-' :: x.toList ++ '\n' :: b.toList) := by
    simp
  have hwithout : (a ++ "\n" ++ b).toList = a.toList ++ '\n' :: b.toList := by simp
  have hoc := outcomes_congr (stripComments_lineComment (endsApart_of_isBlank ha) hx.comment b.toList)
  have houtline : (draft d (a ++ "--" ++ x ++ "\n" ++ b)).outline = (draft d (a ++ "\n" ++ b)).outline := by
    rw [outline_draft, outline_draft, hwith, hwithout, tablesOf, tablesOf, hoc]
  have hdiagnostics : (draft d (a ++ "--" ++ x ++ "\n" ++ b)).diagnostics = (draft d (a ++ "\n" ++ b)).diagnostics := by
    rw [diagnostics_draft, diagnostics_draft, hwith, hwithout, faultsOf, faultsOf, hoc]
  refine ⟨houtline, hdiagnostics, fun s => ?_⟩
  rw [read, read, Draft.reading, Draft.reading, houtline, hdiagnostics]

/-- A body in which a block comment is open. -/
def notesHead : String := "CREATE TABLE notes (\n  id INT, /* the "

/-- A line that would end the statement, the body and a literal. -/
def notesLine : String := " text); of 'it"

/-- The end of the comment and the rest of the body. -/
def notesTail : String := "  body */ body TEXT\n);\nnone"

theorem read_lineComment_notes : (∀ w ∈ notesHead.toList.getLast?, isBlank w = true) ∧ Markless notesLine.toList ∧
    (draft .mysql (notesHead ++ "--" ++ notesLine ++ "\n" ++ notesTail)).outline =
      (draft .mysql (notesHead ++ "\n" ++ notesTail)).outline ∧
    (draft .mysql (notesHead ++ "--" ++ notesLine ++ "\n" ++ notesTail)).diagnostics =
      (draft .mysql (notesHead ++ "\n" ++ notesTail)).diagnostics ∧
    (∀ s, read s .mysql (notesHead ++ "--" ++ notesLine ++ "\n" ++ notesTail) =
      read s .mysql (notesHead ++ "\n" ++ notesTail)) ∧
    (draft .mysql (notesHead ++ "\n" ++ notesTail)).outline.tables.map (fun t => t.columns.map Outline.Column.name) =
      [["id", "body"]] ∧
    (draft .mysql (notesHead ++ "\n" ++ notesTail)).diagnostics.map Diagnostic.line = [5] := by
  have ha : ∀ w ∈ notesHead.toList.getLast?, isBlank w = true := by decide +kernel
  have hx : Markless notesLine.toList := ⟨by decide +kernel, by decide +kernel, by decide +kernel⟩
  obtain ⟨houtline, hdiagnostics, hread⟩ := read_lineComment .mysql ha hx notesTail
  exact ⟨ha, hx, houtline, hdiagnostics, hread, by decide +kernel, by decide +kernel⟩

end Erd.Sql
