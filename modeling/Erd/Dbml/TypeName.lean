import Erd.ColumnType
import Erd.Text.LetterCase

/-!
# Type names of DBML

DBML spells a type with its name in small letters, and three types have a second name. A parameter list
after the name is ignored. Unlike in SQL an unknown name means nothing.

**Results.**
* `columnType?_typeName`: a type is found under the name it is written with.
-/
namespace Erd.Dbml

open Text

/-- The spelling of a column type. -/
def typeName (t : ColumnType) : String := t.lowerName

/-- The type with a name in small letters. -/
def typeNamed? (name : String) : Option ColumnType :=
  if name = "bool" then some .boolean
  else if name = "integer" then some .int
  else if name = "jsonb" then some .json
  else ColumnType.all.find? fun t => t.lowerName == name

/-- The text without a parameter list at its end: what follows the first opening parenthesis of the last
line is one if the text ends in a closing parenthesis. -/
def dropParameters : List Char → List Char
  | [] => []
  | c :: s =>
    if c = '(' && s.getLast? == some ')' && !s.contains '\n' then [] else c :: dropParameters s

/-- The type that a spelling means. -/
def columnType? (spelling : List Char) : Option ColumnType :=
  typeNamed? (String.ofList (lower (dropParameters (trim spelling))))

theorem columnType?_typeName (t : ColumnType) : columnType? (typeName t).toList = some t := by
  cases t <;> decide

end Erd.Dbml
