import Erd.Text.Blank

/-!
# Comments of SQL

Comments are taken out in two rounds, so that a line comment may not hide the end of a block comment:
first the blocks, of which only the line feeds stay, then what follows two hyphens on a line. A block that
is not closed is no comment.

**Results.**
* `closesBlock_iff`: an end of a block is found wherever it stands.
* `newlines_stripComments`: the text keeps all its line feeds, so that lines can still be counted.
-/
namespace Erd.Sql

/-- The text holds the end of a block comment. -/
def closesBlock : List Char → Bool
  | '*' :: '/' :: _ => true
  | _ :: s => closesBlock s
  | [] => false

/-- The text without block comments, from inside of one or from outside. -/
def dropBlocksFrom : (inside : Bool) → List Char → List Char
  | _, [] => []
  | false, '/' :: '*' :: s => if closesBlock s then dropBlocksFrom true s else '/' :: '*' :: s
  | false, c :: s => c :: dropBlocksFrom false s
  | true, '*' :: '/' :: s => dropBlocksFrom false s
  | true, c :: s => if c = '\n' then '\n' :: dropBlocksFrom true s else dropBlocksFrom true s

/-- The text without block comments, but with the line feeds in them. -/
def dropBlocks (s : List Char) : List Char := dropBlocksFrom false s

/-- The text without line comments, from inside of one or from outside. -/
def dropLineCommentsFrom : (inside : Bool) → List Char → List Char
  | _, [] => []
  | false, '-' :: '-' :: s => dropLineCommentsFrom true s
  | false, c :: s => c :: dropLineCommentsFrom false s
  | true, c :: s => if c = '\n' then '\n' :: dropLineCommentsFrom false s else dropLineCommentsFrom true s

/-- The text without what follows two hyphens up to the end of the line. -/
def dropLineComments (s : List Char) : List Char := dropLineCommentsFrom false s

/-- The text without comments. -/
def stripComments (s : List Char) : List Char := dropLineComments (dropBlocks s)

/-! ## Ends of blocks -/

theorem closesBlock_iff {s : List Char} : closesBlock s = true ↔ ['*', '/'] <:+: s := by
  fun_induction closesBlock s with
  | case1 s => simpa using (List.prefix_append ['*', '/'] s).isInfix
  | case2 c s hne ih =>
    rw [ih, List.infix_cons_iff, or_iff_right]
    rintro ⟨t, ht⟩
    obtain ⟨rfl, hs⟩ := List.cons.inj ht
    exact hne t rfl hs.symm
  | case3 => simp

/-! ## Lines -/

theorem newlines_dropBlocksFrom (inside : Bool) (s : List Char) :
    Text.newlines (dropBlocksFrom inside s) = Text.newlines s := by
  unfold Text.newlines
  fun_induction dropBlocksFrom inside s <;> simp_all [List.count_cons]

theorem newlines_dropLineCommentsFrom (inside : Bool) (s : List Char) :
    Text.newlines (dropLineCommentsFrom inside s) = Text.newlines s := by
  unfold Text.newlines
  fun_induction dropLineCommentsFrom inside s <;> simp_all [List.count_cons]

theorem newlines_stripComments (s : List Char) :
    Text.newlines (stripComments s) = Text.newlines s := by
  unfold stripComments dropLineComments dropBlocks
  rw [newlines_dropLineCommentsFrom, newlines_dropBlocksFrom]

end Erd.Sql
