import Erd.Files.Tree
import Erd.Settings

/-!
# Where the journal is written

The journal goes to the standard error, from the rank that the settings give, and also to a file if the
settings name one that can be opened. The file gets every record that the journal lets through. A file that
cannot be opened is a warning and nothing more.

**Results.**
* `open_of_no_file`: without a file in the settings no file is touched.
-/
namespace Erd.Journal

/-- A record: how serious it is, where it comes from, and what it says. -/
structure Record where
  level : Level
  source : String
  message : String
  deriving DecidableEq, Repr

/-- A text filled up with blanks to eight columns. -/
def padded (s : String) : String := s ++ String.ofList (List.replicate (8 - s.length) ' ')

/-- The line of a record. -/
def Record.line (r : Record) : String := "[" ++ padded r.level.name ++ "] " ++ r.source ++ ": " ++ r.message

/-- A place that records are written to. -/
inductive SinkKind where
  | standardError
  | file
  deriving DecidableEq, Repr

/-- The name of a kind of sink. -/
def SinkKind.name : SinkKind → String
  | .standardError => "stderr"
  | .file => "file"

/-- A sink and the rank from which it takes records. -/
structure Sink where
  kind : SinkKind
  rank : Nat
  deriving DecidableEq, Repr

/-- An open journal. -/
structure State where
  /-- The rank from which the journal takes records at all. -/
  rank : Nat
  sinks : List Sink
  /-- The place of the file, if it is open. -/
  file : Option Files.Place := none
  /-- What has been written to the standard error. -/
  lines : List String := []
  /-- The files as they stand. -/
  files : Files.Tree := []
  deriving DecidableEq, Repr

namespace State

/-- The sinks that take a record. -/
def takers (s : State) (r : Record) : List SinkKind :=
  if r.level.rank < s.rank then []
  else (s.sinks.filter fun k => k.rank ≤ r.level.rank).map Sink.kind

/-- The journal with a line in its file. -/
def appendLine (s : State) (line : String) : State :=
  match s.file with
  | none => s
  | some place =>
    { s with files := (s.files.append (line ++ "\n").toUTF8.toList ⟨0, place⟩).toOption.getD s.files }

/-- The journal with a record written. -/
def write (s : State) (r : Record) : State :=
  let kinds := s.takers r
  let s := if kinds.contains .standardError then { s with lines := s.lines ++ [r.line] } else s
  if kinds.contains .file then s.appendLine r.line else s

end State

/-- The files after a file of the journal was opened: the directories on the way to it are made. The system
is asked for the full path, whose beginning `directory` names. -/
def openFile (directory : String) (files : Files.Tree) (path : Files.Path) :
    Except Files.SystemError (Files.Tree × Files.Place) :=
  (files.makeDirectories path.parent).bind fun files =>
    let full : Files.Path := { path with names := Files.Path.resolved path.names }
    let shown :=
      if full.slashes ≠ 0 then full.toString
      else if full.names = [] then directory
      else directory ++ "/" ++ full.toString
    ((files.append [] full).map fun files => (files, full.names)).mapError fun f => ⟨f, shown⟩

/-- The warning about a file that cannot be opened. -/
def unwritable (source : String) (path : Files.Path) (e : Files.SystemError) : Record where
  level := .warning
  source := source
  message := "LOG_FILE '" ++ path.toString ++ "' is not writable, logging to stderr only: " ++ e.message

/-- Opens the journal. -/
def openWith (source directory : String) (files : Files.Tree) (settings : Settings) : State :=
  let rank := settings.rank
  let plain : State := { rank := rank, sinks := [⟨.standardError, rank⟩], files := files }
  match settings.logFile.filter (· ≠ "") with
  | none => plain
  | some name =>
    let path := Files.Path.ofString name
    match openFile directory files path with
    | .ok (files, place) =>
      { plain with sinks := plain.sinks ++ [⟨.file, Level.debug.rank⟩], file := some place, files := files }
    | .error e => plain.write (unwritable source path e)

/-- The name of the journal of a part. -/
def nameOf (part : String) : String := "schema_interchange." ++ part

/-- The record of an event. -/
def Record.ofEvent (e : Event) : Record := ⟨e.level, nameOf e.origin.name, e.message⟩

theorem open_of_no_file {source directory : String} {files : Files.Tree} {settings : Settings}
    (h : settings.logFile = none) : (openWith source directory files settings).files = files := by
  simp [openWith, h]

end Erd.Journal
