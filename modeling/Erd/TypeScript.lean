import Erd.Diagram.Basic

/-!
# Writing TypeScript

A diagram is written as a type alias for each table, with a member for each column.
-/
namespace Erd.TypeScript

open Text

/-- The type of a column's values. -/
def typeName : ColumnType → String
  | .bigint | .decimal | .float | .int | .serial => "number"
  | .blob => "Uint8Array"
  | .boolean => "boolean"
  | .date | .timestamp => "Date"
  | .json => "Record<string, unknown>"
  | .text | .uuid | .varchar => "string"

/-- The rest of a name, where `held` tells whether an underscore has been read and not yet written. -/
def camelFrom : (held : Bool) → List Char → List Char
  | false, [] => []
  | true, [] => ['_']
  | false, c :: s => if c = '_' then camelFrom true s else c :: camelFrom false s
  | true, c :: s =>
    if c.isLower then c.toUpper :: camelFrom false s
    else if c = '_' then '_' :: camelFrom true s
    else '_' :: c :: camelFrom false s

/-- A name with a capital for each underscore and the small letter of ASCII after it. -/
def camelCase (name : List Char) : List Char := camelFrom false name

/-- A character between the parts of a name. -/
def isJoint (c : Char) : Bool := c == '_' || c == '-' || isBlank c

/-- The parts of a name between its joints. -/
def parts : List Char → List (List Char)
  | [] => [[]]
  | c :: s =>
    if isJoint c then [] :: parts s
    else match parts s with
      | part :: rest => (c :: part) :: rest
      | [] => [[c]]

/-- A part with a capital first and small letters after it. -/
def capitalized : List Char → List Char
  | [] => []
  | c :: s => upperChar c ++ lower s

/-- A name with its parts capitalised and put together. -/
def pascalCase (name : List Char) : List Char := (parts name).flatMap capitalized

/-- The line of a column. -/
def memberLine (c : Column) : String :=
  "  " ++ String.ofList (camelCase c.name.toList) ++ ": " ++ typeName c.type ++
    (if c.constraints.isNullable then " | null" else "")

/-- The type alias of a table. -/
def aliasText (t : Table) : String :=
  "\n".intercalate
    (("export type " ++ String.ofList (pascalCase t.name.toList) ++ " = \x7b") ::
      t.columns.map memberLine ++ ["\x7d"])

/-- The text of a diagram; empty without tables. -/
def write (d : Diagram) : String := "\n\n".intercalate (d.tables.map aliasText)

end Erd.TypeScript
