import Erd.Grid
import Erd.Journal
import Erd.Number.Integer
import Erd.Sql.Command

/-!
# Settings

The settings come from the environment, each from one variable with a default. A whole number that cannot
be read is an error, reported for the first variable in the order of the fields; every other text is taken
as it is.
-/
namespace Erd

/-- The variables that are set. -/
abbrev Environment := List (String × String)

/-- A setting that should have been a whole number. -/
structure SettingError where
  given : String
  deriving DecidableEq, Repr

/-- The wording of the error. -/
def SettingError.message (e : SettingError) : String :=
  "invalid literal for int() with base 10: " ++ Text.quoted e.given

/-- The settings of a run. -/
structure Settings where
  grid : Grid := {}
  dialect : String := "postgresql"
  tableOptions : Sql.TableOptions := {}
  logLevel : String := "INFO"
  logFile : Option String := none
  deriving DecidableEq, Repr

/-- The program's name. -/
def appName : String := "Schema Interchange"

/-- The program's version. -/
def appVersion : String := "1.0.0"

namespace Settings

/-- The value of a variable, or a default. -/
def valueOf (env : Environment) (name default : String) : String := (env.lookup name).getD default

/-- The whole number in a variable, or a default. -/
def numberOf (env : Environment) (name : String) (default : Int) : Except SettingError Int :=
  match env.lookup name with
  | none => .ok default
  | some text =>
    match integer? text with
    | some n => .ok n
    | none => .error ⟨text⟩

/-- Reads the settings. -/
def ofEnvironment (env : Environment) : Except SettingError Settings := do
  let columns ← numberOf env "LAYOUT_GRID_COLUMNS" 3
  let horizontal ← numberOf env "LAYOUT_H_SPACING" 300
  let vertical ← numberOf env "LAYOUT_V_SPACING" 250
  return {
    grid := ⟨columns, horizontal, vertical⟩
    dialect := String.ofList (Text.lower (valueOf env "DEFAULT_SQL_DIALECT" "postgresql").toList)
    tableOptions := ⟨valueOf env "MYSQL_ENGINE" "InnoDB", valueOf env "MYSQL_CHARSET" "utf8mb4"⟩
    logLevel := String.ofList (Text.upper (valueOf env "LOG_LEVEL" "INFO").toList)
    logFile := env.lookup "LOG_FILE" }

/-- The rank from which events are written, by the name of a level; that of an information if the name is
none. -/
def rankNamed (name : String) : Nat :=
  if name = "CRITICAL" || name = "FATAL" then 50
  else if name = "ERROR" then 40
  else if name = "WARNING" || name = "WARN" then 30
  else if name = "DEBUG" then 10
  else if name = "NOTSET" then 0
  else 20

/-- The rank from which events are written. -/
def rank (s : Settings) : Nat := rankNamed s.logLevel

end Settings

end Erd
