import Erd.ColumnType
import Erd.Dialect

/-!
# Type names of SQL

How the dialects spell the column types, and which column type a spelling means. The spellings of a type
are told apart by ordered rules, since some start like others: the first rule that fits decides, and a
spelling that none fits means a text column.
-/
namespace Erd.Sql

open Text

/-! ## Reading -/

/-- Every word that is a type name of some dialect, in capital letters. -/
def typeWords : List String :=
  ["BIGINT", "BIGSERIAL", "BINARY", "BLOB", "BOOL", "BOOLEAN", "BYTEA", "CHAR", "DATE", "DATETIME",
    "DECIMAL", "DOUBLE", "FLOAT", "INT", "INTEGER", "JSON", "JSONB", "LONGTEXT", "MEDIUMINT", "MEDIUMTEXT",
    "NUMERIC", "REAL", "SERIAL", "SMALLINT", "TEXT", "TIME", "TIMESTAMP", "TINYINT", "TINYTEXT", "UUID",
    "VARBINARY", "VARCHAR"]

/-- The text is a type name and nothing else. -/
def isTypeWord (s : List Char) : Bool := typeWords.contains (String.ofList (upper (trim s)))

/-- The spelling is a word, in any case. -/
def isExactly (word : String) (s : List Char) : Bool := keyword word s == some []

/-- The spelling starts with a word, in any case. -/
def startsWith (word : String) (s : List Char) : Bool := (keyword word s).isSome

/-- The text after a parenthesis with just `digits` in it, blanks aside. -/
def sized (digits : String) (s : List Char) : Option (List Char) :=
  match trimStart s with
  | '(' :: inside => do
    let rest ← dropKeyword digits.toList (trimStart inside)
    match trimStart rest with
    | ')' :: rest => some rest
    | _ => none
  | _ => none

/-- Nothing, or one parenthesis without another in it. -/
def isOptionalSize (s : List Char) : Bool :=
  match trimStart s with
  | [] => true
  | '(' :: inside => (inside.dropWhile fun c => c ≠ '(' && c ≠ ')') == [')']
  | _ => false

/-- The rules, in the order in which they are tried. -/
def typeRules : List ((List Char → Bool) × ColumnType) :=
  [(isExactly "bigserial", .bigint),
    (isExactly "serial", .serial),
    (startsWith "bigint", .bigint),
    (fun s => ((keyword "tinyint" s).bind (sized "1")).isSome, .boolean),
    (startsWith "int", .int),
    (fun s => isExactly "boolean" s || isExactly "bool" s, .boolean),
    (isExactly "uuid", .uuid),
    (fun s => (keyword "char" s).bind (sized "36") == some [], .uuid),
    (fun s => ((keyword "varchar" s).or (keyword "char" s)).any isOptionalSize, .varchar),
    (fun s => startsWith "tinytext" s || startsWith "mediumtext" s || startsWith "longtext" s ||
      startsWith "text" s, .text),
    (isExactly "date", .date),
    (fun s => startsWith "timestamp" s || startsWith "datetime" s, .timestamp),
    (fun s => startsWith "float" s || startsWith "real" s || startsWith "double" s, .float),
    (fun s => startsWith "decimal" s || startsWith "numeric" s, .decimal),
    (fun s => isExactly "json" s || isExactly "jsonb" s, .json),
    (fun s => startsWith "blob" s || startsWith "bytea" s || startsWith "binary" s ||
      startsWith "varbinary" s, .blob)]

/-- The column type that a spelling means. -/
def columnType (spelling : List Char) : ColumnType :=
  let s := trim spelling
  ((typeRules.find? fun rule => rule.1 s).map Prod.snd).getD .text

/-! ## Writing -/

/-- The spelling of a column type in a dialect. -/
def typeName : Dialect → ColumnType → String
  | .postgresql, .bigint => "BIGINT"
  | .postgresql, .blob => "BYTEA"
  | .postgresql, .boolean => "BOOLEAN"
  | .postgresql, .date => "DATE"
  | .postgresql, .decimal => "DECIMAL(10,2)"
  | .postgresql, .float => "REAL"
  | .postgresql, .int => "INTEGER"
  | .postgresql, .json => "JSONB"
  | .postgresql, .serial => "SERIAL"
  | .postgresql, .text => "TEXT"
  | .postgresql, .timestamp => "TIMESTAMP"
  | .postgresql, .uuid => "UUID"
  | .postgresql, .varchar => "VARCHAR(255)"
  | .mysql, .bigint => "BIGINT"
  | .mysql, .blob => "BLOB"
  | .mysql, .boolean => "TINYINT(1)"
  | .mysql, .date => "DATE"
  | .mysql, .decimal => "DECIMAL(10,2)"
  | .mysql, .float => "FLOAT"
  | .mysql, .int => "INT"
  | .mysql, .json => "JSON"
  | .mysql, .serial => "INT"
  | .mysql, .text => "TEXT"
  | .mysql, .timestamp => "TIMESTAMP"
  | .mysql, .uuid => "CHAR(36)"
  | .mysql, .varchar => "VARCHAR(255)"
  | .sqlite, .blob => "BLOB"
  | .sqlite, .bigint | .sqlite, .boolean | .sqlite, .int | .sqlite, .serial => "INTEGER"
  | .sqlite, .decimal | .sqlite, .float => "REAL"
  | .sqlite, .date | .sqlite, .json | .sqlite, .text | .sqlite, .timestamp | .sqlite, .uuid
  | .sqlite, .varchar => "TEXT"

end Erd.Sql
