import Erd.CommandLine.Run
import Erd.CommandLine.Usage
import Erd.Journal.Sink

/-!
# The program

The program on a real system: its arguments, environment and files. All that it decides is decided
elsewhere.
-/
namespace Erd.Main

open CommandLine Journal

/-- The variables that the settings come from. -/
def variableNames : List String :=
  ["LAYOUT_GRID_COLUMNS", "LAYOUT_H_SPACING", "LAYOUT_V_SPACING", "DEFAULT_SQL_DIALECT", "MYSQL_ENGINE",
    "MYSQL_CHARSET", "LOG_LEVEL", "LOG_FILE"]

/-- The variables that are set. -/
def environment : IO Environment :=
  variableNames.filterMapM fun name => do return (← IO.getEnv name).map fun value => (name, value)

/-- A number of the system, which may be given as a negative one. -/
def systemNumber (n : UInt32) : Nat := if n.toNat < Nat.pow 2 31 then n.toNat else Nat.pow 2 32 - n.toNat

/-- The fault that the system reports. -/
def faultOf : IO.Error → Files.Fault
  | .alreadyExists _ n text | .otherError n text | .resourceBusy n text | .resourceVanished n text
  | .unsupportedOperation n text | .hardwareFault n text | .unsatisfiedConstraints n text
  | .illegalOperation n text | .protocolError n text | .timeExpired n text | .interrupted _ n text
  | .noFileOrDirectory _ n text | .invalidArgument _ n text | .permissionDenied _ n text
  | .resourceExhausted _ n text | .inappropriateType _ n text | .noSuchThing _ n text =>
    .ofNumber (systemNumber n) text
  | .unexpectedEof => .other 0 "Unexpected end"
  | .userError text => .other 0 text

/-- An action on a path, with its fault if it has one. -/
def attempt {α : Type} (path : Files.Path) (act : String → IO α) : IO (Except Files.SystemError α) := do
  try return .ok (← act path.toString) catch e => return .error ⟨faultOf e, path.toString⟩

/-- The input with a name. -/
def readInput (name : String) : IO Input := do
  if name = "-" then return .ok (← (← IO.getStdin).readBinToEnd).toList
  else attempt (.ofString name) fun path => do return (← IO.FS.readBinFile path).toList

/-- Makes the directories on the way to a file and opens it once. -/
def openLog (path : Files.Path) : IO (Except Files.SystemError Unit) := do
  match ← attempt path.parent (fun directory => IO.FS.createDirAll directory) with
  | .error e => return .error e
  | .ok () => attempt path fun file => IO.FS.withFile file .append fun _ => pure ()

/-- Writes records: to the standard error those that the settings let through, and to the file as well. -/
def writeRecords (settings : Settings) (file : Option Files.Path) (records : List Record) : IO Unit := do
  let records := records.filter fun r => settings.rank ≤ r.level.rank
  for r in records do
    IO.eprintln r.line
  if let some path := file then
    let _ ← attempt path fun file => IO.FS.withFile file .append fun h => records.forM fun r => h.putStrLn r.line

/-- The file of the journal, if it can be opened; otherwise a warning is written. -/
def journalFile (settings : Settings) : IO (Option Files.Path) := do
  match settings.logFile.filter (· ≠ "") with
  | none => return none
  | some name =>
    let path := Files.Path.ofString name
    match ← openLog path with
    | .ok () => return some path
    | .error e =>
      writeRecords settings none [unwritable (nameOf "") path e]
      return none

/-- Carries a plan out. -/
def carryOut : Plan → IO Report
  | .show r => return r
  | .write name text events => do
    return written name events (← attempt (.ofString name) fun path => IO.FS.writeFile path text)

/-- The wording of a crash. -/
def crashText : Crash → String
  | .undecodable => "the input is no UTF-8"
  | .unusablePath => "the path of a file holds a NUL"
  | .overrun o => o.text
  | .unwritable => "a number has too many digits to be written"
  | .noGrid .noColumns => "the layout grid has no columns"

/-- Runs a command. -/
def runCommand (settings : Settings) (c : Command) : IO Nat := do
  let log ← journalFile settings
  let sheet : Outline.Sheet := ⟨settings.grid, "id" ++ toString (← IO.rand 0 (Nat.pow 2 48)) ++ "-"⟩
  match c.plan {} sheet settings.tableOptions (← readInput c.input) with
  | .error crash =>
    IO.eprintln (crashText crash)
    return 1
  | .ok plan =>
    let r ← carryOut plan
    writeRecords settings log (r.events.map Record.ofEvent)
    IO.print r.output
    IO.eprint r.complaint
    return r.status

/-- Ends the program because of its arguments. -/
def stop (s : Stop) : IO Nat := do
  IO.print s.output
  match s with
  | .misused program _ => IO.eprint (usageOf program ++ s.complaint ++ "\n")
  | _ => pure ()
  return s.status

/-- The program. -/
def run (args : List String) : IO Nat := do
  match Settings.ofEnvironment (← environment) with
  | .error e =>
    IO.eprintln e.message
    return 1
  | .ok settings =>
    match Command.ofArguments settings args with
    | .error s => stop s
    | .ok c => runCommand settings c

end Erd.Main

/-- The program. -/
def main (args : List String) : IO UInt32 := do return (← Erd.Main.run args).toUInt32
