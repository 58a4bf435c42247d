import Erd.Text.Blank
import Erd.Text.CaseTable
import Erd.Text.Word

/-!
# Letter case

Small and capital forms of whole texts, and the comparison of keywords, which ignores case.

Names are compared through `lower`, the full mapping of Unicode: one character may become two, and a
capital sigma takes its final form at the end of a word. Keywords are compared through `foldLatin`,
character by character.
-/
namespace Erd.Text

/-- The shift that the runs give a code point, if they hold it. -/
def CaseRun.shiftOf? : List CaseRun → Nat → Option Int
  | [], _ => none
  | r :: runs, n =>
    if r.first ≤ n && n ≤ r.last && (n - r.first) % r.step == 0 then some r.shift
    else CaseRun.shiftOf? runs n

/-- The character moved as the runs say. -/
def shifted (runs : List CaseRun) (c : Char) : Char :=
  match CaseRun.shiftOf? runs c.toNat with
  | some d => Char.ofNat (Int.toNat (c.toNat + d))
  | none => c

/-! ## Small forms -/

/-- A letter that has case. -/
def isCased (c : Char) : Bool :=
  if c.toNat < 128 then c.isAlpha else inIntervals casedIntervals c

/-- A mark that is skipped when a sigma looks for the letters beside it. -/
def isCaseIgnorable (c : Char) : Bool := inIntervals caseIgnorableIntervals c

/-- The text starts with a letter that has case, marks aside. -/
def startsCased (s : List Char) : Bool :=
  match s.dropWhile isCaseIgnorable with
  | c :: _ => isCased c
  | [] => false

/-- The small form of a character on its own: of the dotted capital I it is an i and a dot above. -/
def lowerChar (c : Char) : List Char :=
  if c.toNat < 128 then [c.toLower]
  else if c = '\u0130' then ['i', '\u0307']
  else [shifted lowerRuns c]

/-- The small form of a text. `afterCased` tells whether a letter that has case stands before it, marks
aside: a sigma after such a letter and not before one takes its final form. -/
def lowerFrom (afterCased : Bool) : List Char → List Char
  | [] => []
  | c :: s =>
    (if c = '\u03A3' then [if afterCased && !startsCased s then '\u03C2' else '\u03C3']
      else lowerChar c) ++
      lowerFrom (if isCaseIgnorable c then afterCased else isCased c) s

/-- The text in small letters. -/
def lower (s : List Char) : List Char := lowerFrom false s

/-! ## Capital forms -/

/-- The capital form of a character, of one or more characters. -/
def upperChar (c : Char) : List Char :=
  if c.toNat < 128 then [c.toUpper]
  else match upperLong.lookup c.toNat with
    | some ns => ns.map Char.ofNat
    | none => [shifted upperRuns c]

/-- The text in capital letters. -/
def upper (s : List Char) : List Char := s.flatMap upperChar

/-! ## Keywords -/

/-- The small Latin letter of which `c` is a form, case aside; any other character stands for itself.
Beside the two ASCII forms the letter i has the dotted capital and the dotless small one, s the long one
and k the Kelvin sign. -/
def foldLatin (c : Char) : Char :=
  if c.toNat < 128 then c.toLower
  else if c = '\u0130' || c = '\u0131' then 'i'
  else if c = '\u017F' then 's'
  else if c = '\u212A' then 'k'
  else c

/-- The text after a keyword, given in small letters, that it starts with in any case. -/
def dropKeyword : List Char → List Char → Option (List Char)
  | [], s => some s
  | _ :: _, [] => none
  | k :: ks, c :: s => if foldLatin c = k then dropKeyword ks s else none

/-- The text after the keyword that it starts with. -/
def keyword (word : String) (s : List Char) : Option (List Char) := dropKeyword word.toList s

/-- The text after keywords with blanks between them. -/
def phrase : List String → List Char → Option (List Char)
  | [], s => some s
  | [word], s => keyword word s
  | word :: words, s => ((keyword word s).bind skipBlanks?).bind (phrase words)

/-- The keywords stand somewhere in the text as whole words. -/
def hasPhrase (words : List String) (s : List Char) : Bool :=
  (search (fun t => (phrase words t).filter atWordEnd) s).isSome

theorem length_dropKeyword {ks s rest : List Char} (h : dropKeyword ks s = some rest) :
    rest.length + ks.length = s.length := by
  induction ks generalizing s with
  | nil => simp only [dropKeyword, Option.some.injEq] at h; simp [h]
  | cons k ks ih =>
    cases s with
    | nil => simp [dropKeyword] at h
    | cons c s =>
      simp only [dropKeyword] at h
      split at h
      · have := ih h; simp; omega
      · contradiction

end Erd.Text
