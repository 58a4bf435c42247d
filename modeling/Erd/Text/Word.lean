import Erd.Text.WordTable

/-!
# Word characters

A word is made of the letters and numbers of all scripts and of the underscore. The edges of words
decide where a keyword may stand in running text.
-/
namespace Erd.Text

/-- The character's code point lies in one of the intervals. -/
def inIntervals (table : List (Nat × Nat)) (c : Char) : Bool :=
  table.any fun r => r.1 ≤ c.toNat && c.toNat ≤ r.2

/-- A letter or number of some script, or the underscore. -/
def isWord (c : Char) : Bool :=
  if c.toNat < 128 then c.isAlphanum || c == '_' else inIntervals wordIntervals c

/-- The word a text starts with, empty if it starts with none. -/
def leadingWord (s : List Char) : List Char := s.takeWhile isWord

/-- The text after the word it starts with. -/
def afterWord (s : List Char) : List Char := s.dropWhile isWord

/-- A name that is one whole word. -/
def isPlainWord (s : List Char) : Bool := !s.isEmpty && s.all isWord

/-- The text does not continue a word. -/
def atWordEnd : List Char → Bool
  | [] => true
  | c :: _ => !isWord c

theorem leadingWord_append_afterWord (s : List Char) : leadingWord s ++ afterWord s = s :=
  List.takeWhile_append_dropWhile

/-- What `f` finds at the first place where it finds something and no word character stands just before.
`inside` tells whether one stands before the text. -/
def firstAtWord {α : Type} (f : List Char → Option α) (inside : Bool) : List Char → Option α
  | [] => none
  | c :: s =>
    match if inside then none else f (c :: s) with
    | some a => some a
    | none => firstAtWord f (isWord c) s

/-- What `f` finds first in the text, trying only where no word character stands just before. -/
def search {α : Type} (f : List Char → Option α) (s : List Char) : Option α := firstAtWord f false s

end Erd.Text
