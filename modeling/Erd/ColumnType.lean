/-!
# Column types

The thirteen types a column can have, whatever dialect it is written in.

**Results.**
* `ofName?_name`: a type is found under its own name.
* `name_injective`: no two types share a name.
-/
namespace Erd

/-- The type of a column. -/
inductive ColumnType where
  | int
  | bigint
  | serial
  | varchar
  | text
  | boolean
  | date
  | timestamp
  | float
  | decimal
  | uuid
  | json
  | blob
  deriving DecidableEq, Repr

namespace ColumnType

/-- Every type, in the order in which messages list them. -/
def all : List ColumnType :=
  [.int, .bigint, .serial, .varchar, .text, .boolean, .date, .timestamp, .float, .decimal, .uuid,
    .json, .blob]

/-- The name of a type. -/
def name : ColumnType → String
  | .int => "INT"
  | .bigint => "BIGINT"
  | .serial => "SERIAL"
  | .varchar => "VARCHAR"
  | .text => "TEXT"
  | .boolean => "BOOLEAN"
  | .date => "DATE"
  | .timestamp => "TIMESTAMP"
  | .float => "FLOAT"
  | .decimal => "DECIMAL"
  | .uuid => "UUID"
  | .json => "JSON"
  | .blob => "BLOB"

/-- The name in small letters. -/
def lowerName : ColumnType → String
  | .int => "int"
  | .bigint => "bigint"
  | .serial => "serial"
  | .varchar => "varchar"
  | .text => "text"
  | .boolean => "boolean"
  | .date => "date"
  | .timestamp => "timestamp"
  | .float => "float"
  | .decimal => "decimal"
  | .uuid => "uuid"
  | .json => "json"
  | .blob => "blob"

/-- The type with a name, spelled exactly. -/
def ofName? (s : String) : Option ColumnType := all.find? fun t => t.name == s

theorem ofName?_name (t : ColumnType) : ofName? t.name = some t := by cases t <;> rfl

theorem name_injective {a b : ColumnType} (h : a.name = b.name) : a = b := by
  have := ofName?_name a
  rw [h, ofName?_name] at this
  exact (Option.some.inj this).symm

end ColumnType

end Erd
