import Erd.Text.LetterCase

/-!
# SQL dialects

**Results.**
* `ofName?_name`: a dialect is found under its own name.
-/
namespace Erd

/-- A dialect of SQL that can be read and written. -/
inductive Dialect where
  | postgresql
  | mysql
  | sqlite
  deriving DecidableEq, Repr

namespace Dialect

/-- Every dialect, in the order in which messages list them. -/
def all : List Dialect := [.postgresql, .mysql, .sqlite]

/-- The name of a dialect. -/
def name : Dialect → String
  | .postgresql => "postgresql"
  | .mysql => "mysql"
  | .sqlite => "sqlite"

/-- The dialect with a name, in any case and with blanks around it. -/
def ofName? (s : String) : Option Dialect :=
  let key := String.ofList (Text.lower (Text.trim s.toList))
  all.find? fun d => d.name == key

theorem ofName?_name (d : Dialect) : ofName? d.name = some d := by cases d <;> decide

end Dialect

/-- A name that is no dialect's. -/
structure UnknownDialect where
  given : String
  deriving DecidableEq, Repr

/-- The wording of the error, which lists the dialects. -/
def UnknownDialect.message (e : UnknownDialect) : String :=
  "Unsupported SQL dialect '" ++ e.given ++ "'; expected one of " ++
    ", ".intercalate (Dialect.all.map Dialect.name)

/-- The dialect with a name, or the error that there is none. -/
def Dialect.named (s : String) : Except UnknownDialect Dialect :=
  match Dialect.ofName? s with
  | some d => .ok d
  | none => .error ⟨s⟩

end Erd
