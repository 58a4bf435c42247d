import Erd.Text.LetterCase

/-!
# Names between quotes

A name may be written between double, single or back quotes.
-/
namespace Erd.Text

/-- A quote that may go around a name. -/
def isQuote (c : Char) : Bool := c == '"' || c == '\'' || c == '\x60'

/-- The text without the blanks around it and then without one pair of equal quotes around it. -/
def unquote (s : List Char) : List Char :=
  match trim s with
  | q :: c :: rest => if isQuote q && (c :: rest).getLast? == some q then (c :: rest).dropLast else q :: c :: rest
  | t => t

/-- The text without the quote it starts with, if it starts with one. -/
def dropQuote : List Char → List Char
  | c :: s => if isQuote c then s else c :: s
  | [] => []

/-- A word with or without a quote on either side, which need not match, and the rest. -/
def looseWord? (s : List Char) : Option (List Char × List Char) :=
  let t := dropQuote s
  let word := leadingWord t
  if word.isEmpty then none else some (word, dropQuote (afterWord t))

/-- What stands in the parenthesis that a text starts with, blanks aside: at least one character, up to the
first closing parenthesis; and the rest after that. -/
def parenthesized? (s : List Char) : Option (List Char × List Char) :=
  match trimStart s with
  | '(' :: inside =>
    match inside.takeWhile (· ≠ ')'), inside.dropWhile (· ≠ ')') with
    | c :: body, ')' :: rest => some (c :: body, rest)
    | _, _ => none
  | _ => none

end Erd.Text
