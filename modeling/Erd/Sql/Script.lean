import Erd.Sql.Comment

/-!
# Scripts

A script is cut at its semicolons into statements. The line of a statement is the line of its first
character that is not blank, counted in the text without comments, whose lines are those of the script.
-/
namespace Erd.Sql

/-- A statement without the blanks around it, and its line. -/
structure Statement where
  line : Nat
  text : List Char
  deriving DecidableEq, Repr

/-- The statements among pieces of text, the first of which starts on `line`. Blank pieces are none. -/
def statementsFrom (line : Nat) : List (List Char) → List Statement
  | [] => []
  | piece :: pieces =>
    let rest := statementsFrom (line + Text.newlines piece) pieces
    if Text.isBlankText piece then rest
    else ⟨line + Text.newlines (piece.takeWhile Text.isBlank), Text.trim piece⟩ :: rest

/-- The statements of a script. -/
def statements (script : List Char) : List Statement :=
  statementsFrom 1 (Text.splitOn ';' (stripComments script))

end Erd.Sql
