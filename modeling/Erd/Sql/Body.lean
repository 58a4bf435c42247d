import Erd.Text.Blank

/-!
# Table bodies

The body of a table is what stands between its parentheses, and its definitions are separated by commas.
A comma inside a further parenthesis or between single quotes separates nothing.
-/
namespace Erd.Sql

/-- The text up to the closing parenthesis that no opening one in it answers, with `depth` parentheses open
from before. -/
def upToClose (depth : Nat) : List Char → Option (List Char)
  | [] => none
  | c :: s =>
    if c = '(' then (upToClose (depth + 1) s).map (c :: ·)
    else if c = ')' then
      match depth with
      | 0 => some []
      | depth + 1 => (upToClose depth s).map (c :: ·)
    else (upToClose depth s).map (c :: ·)

/-- What stands between the parenthesis that a text starts with and the one that closes it. -/
def body? : List Char → Option (List Char)
  | '(' :: s => upToClose 0 s
  | _ => none

/-- How deep in parentheses a place of a body is, and whether it is between single quotes. Parentheses
between quotes do not count; a closing one too many makes the depth negative. -/
structure Nesting where
  depth : Int := 0
  quoted : Bool := false
  deriving DecidableEq, Repr

namespace Nesting

/-- The nesting after a character. -/
def after (n : Nesting) (c : Char) : Nesting :=
  if n.quoted then { n with quoted := c ≠ '\'' }
  else if c = '\'' then { n with quoted := true }
  else if c = '(' then { n with depth := n.depth + 1 }
  else if c = ')' then { n with depth := n.depth - 1 }
  else n

/-- A comma separates definitions here. -/
def isOpen (n : Nesting) : Bool := !n.quoted && n.depth == 0

end Nesting

/-- The pieces between the commas that separate definitions, as they stand. -/
def piecesFrom (n : Nesting) : List Char → List (List Char)
  | [] => [[]]
  | c :: s =>
    if c = ',' && n.isOpen then [] :: piecesFrom n s
    else match piecesFrom (n.after c) s with
      | piece :: pieces => (c :: piece) :: pieces
      | [] => [[c]]

/-- The definitions of a body without the blanks around them; blank pieces are none. -/
def definitions (body : List Char) : List (List Char) :=
  ((piecesFrom {} body).map Text.trim).filter fun d => !d.isEmpty

end Erd.Sql
