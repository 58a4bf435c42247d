/-!
# Blanks and lines

The blank characters of Unicode, trimming, and the cuts of a text into lines and at a separator.
Texts are lists of characters here: readers consume them from the left.

**Results.**
* `join_splitOn`: cutting at a separator loses nothing but the separators.
* `splitOn_ne_nil`: a cut has at least one piece.
-/
namespace Erd.Text

/-- A blank: a space of Unicode, a line or paragraph separator, or one of the control characters that
separate text. -/
def isBlank (c : Char) : Bool :=
  let n := c.toNat
  (9 ≤ n && n ≤ 13) || (28 ≤ n && n ≤ 32) || n == 0x85 || n == 0xA0 || n == 0x1680 ||
    (0x2000 ≤ n && n ≤ 0x200A) || n == 0x2028 || n == 0x2029 || n == 0x202F || n == 0x205F ||
    n == 0x3000

/-- The text from its first character that is not blank. -/
def trimStart (s : List Char) : List Char := s.dropWhile isBlank

/-- The text up to its last character that is not blank. -/
def trimEnd (s : List Char) : List Char := (s.reverse.dropWhile isBlank).reverse

/-- The text without the blanks at both ends. -/
def trim (s : List Char) : List Char := trimEnd (trimStart s)

/-- The text after the blanks it starts with, of which there must be at least one. -/
def skipBlanks? (s : List Char) : Option (List Char) :=
  match s with
  | c :: rest => if isBlank c then some (trimStart rest) else none
  | [] => none

theorem length_trimStart_le (s : List Char) : (trimStart s).length ≤ s.length :=
  (List.dropWhile_sublist _).length_le

theorem length_skipBlanks? {s rest : List Char} (h : skipBlanks? s = some rest) :
    rest.length < s.length := by
  cases s with
  | nil => simp [skipBlanks?] at h
  | cons c s =>
    simp only [skipBlanks?] at h
    split at h
    · cases h
      exact Nat.lt_succ_of_le (length_trimStart_le s)
    · contradiction

/-- Nothing but blanks. -/
def isBlankText (s : List Char) : Bool := s.all isBlank

/-! ## Cuts -/

/-- The pieces between the occurrences of `sep`, the empty ones included. -/
def splitOn (sep : Char) : List Char → List (List Char)
  | [] => [[]]
  | c :: s =>
    if c = sep then [] :: splitOn sep s
    else match splitOn sep s with
      | piece :: pieces => (c :: piece) :: pieces
      | [] => [[c]]

theorem splitOn_ne_nil (sep : Char) (s : List Char) : splitOn sep s ≠ [] := by
  induction s with
  | nil => simp [splitOn]
  | cons c s ih =>
    rw [splitOn]
    split
    · simp
    · split <;> simp

/-- The pieces with `sep` between them. -/
def join (sep : Char) : List (List Char) → List Char
  | [] => []
  | [piece] => piece
  | piece :: pieces => piece ++ sep :: join sep pieces

theorem join_splitOn (sep : Char) (s : List Char) : join sep (splitOn sep s) = s := by
  induction s with
  | nil => rfl
  | cons c s ih =>
    have hne := splitOn_ne_nil sep s
    by_cases h : c = sep
    · rw [splitOn, if_pos h]
      cases hs : splitOn sep s with
      | nil => exact absurd hs hne
      | cons p ps => rw [hs] at ih; simp [join, ih, h]
    · rw [splitOn, if_neg h]
      cases hs : splitOn sep s with
      | nil => exact absurd hs hne
      | cons p ps =>
        rw [hs] at ih
        cases ps with
        | nil => simpa [join] using ih
        | cons q qs => simpa [join] using ih

/-- A character that ends a line. -/
def isLineEnd (c : Char) : Bool :=
  let n := c.toNat
  (10 ≤ n && n ≤ 13) || (28 ≤ n && n ≤ 30) || n == 0x85 || n == 0x2028 || n == 0x2029

/-- The lines of a text without their ends. A carriage return and the line feed after it are one end,
and an end of the whole text starts no further line. -/
def lines : List Char → List (List Char)
  | [] => []
  | '\r' :: '\n' :: s => [] :: lines s
  | c :: s =>
    if isLineEnd c then [] :: lines s
    else match lines s with
      | line :: rest => (c :: line) :: rest
      | [] => [[c]]

/-- The text with every carriage return, alone or before a line feed, turned into a line feed. -/
def unifyNewlines : List Char → List Char
  | [] => []
  | '\r' :: '\n' :: s => '\n' :: unifyNewlines s
  | c :: s => (if c = '\r' then '\n' else c) :: unifyNewlines s

/-- How many line feeds a text holds. -/
def newlines (s : List Char) : Nat := s.count '\n'

end Erd.Text
