import Erd.CommandLine.Command
import Erd.Files.Tree

/-!
# Running a command

A command reads its input, works on it, and shows what comes of it; a conversion may write a file. What
happens between reading and writing is a plan that is made without touching any file. Output is the text
and a line end.

The status of a run is zero if all went well, one if the input cannot be used, and two if a file cannot be
read or written.

A run has room for so many digits in a number and so many calls within one another. Where it runs out of it
there is no status. Neither is one told for JSON with half a pair of units on its own: what it names is no
character, so that nothing here says what becomes of such a text.
-/
namespace Erd.CommandLine

/-- What ends a run that has no way to report it. -/
inductive Crash where
  /-- The input is no UTF-8. -/
  | undecodable
  /-- The path of a file holds a NUL. -/
  | unusablePath
  /-- The input is JSON that runs into a limit. -/
  | overrun (o : Json.Overrun)
  /-- A number has too many digits to be written. -/
  | unwritable
  | noGrid (e : GridError)
  deriving DecidableEq, Repr

/-- How much a run has room for. -/
structure Room where
  /-- The most digits of a whole number that is read or written. -/
  digits : Option Nat := some 4300
  /-- The most arrays and objects within one another in a text that a command reads on its own. -/
  nesting : Option Nat := some 993
  deriving DecidableEq, Repr

/-- The limits of a reader that is so many calls away from the command. Each takes the place of an array. -/
def Room.limits (r : Room) (calls : Nat) : Json.Limits where
  digits := r.digits
  nesting := r.nesting.map (· - calls)
  pairsOnly := true

/-- How many calls the reader of a format is away from a conversion. -/
def readerCalls : InputFormat → Nat
  | .jsonSchema => 2
  | _ => 1

/-- What a run comes to. -/
structure Report where
  status : Nat := 0
  output : String := ""
  complaint : String := ""
  events : List Event := []
  deriving DecidableEq, Repr

/-- The status of a run whose input cannot be used. -/
def invalidInput : Nat := 1

/-- The status of a run with a file that cannot be read or written. -/
def fileFailure : Nat := 2

/-- The report of a run that fails. -/
def Report.failed (status : Nat) (complaint : String) (events : List Event) : Report where
  status := status
  complaint := "✗ " ++ complaint ++ "\n"
  events := events

/-- What is to be done once the input has been read. -/
inductive Plan where
  | show (r : Report)
  /-- Writes a text to a file. -/
  | write (path text : String) (events : List Event)
  deriving DecidableEq, Repr

/-! ## Texts -/

/-- The text in bytes, with every line end taken for a new line. -/
def decode (bytes : List UInt8) : Except Crash String :=
  match String.fromUTF8? ⟨bytes.toArray⟩ with
  | some s => .ok (String.ofList (Text.unifyNewlines s.toList))
  | none => .error .undecodable

/-- The bytes of a text. -/
def encode (text : String) : List UInt8 := text.toUTF8.toList

/-! ## Plans -/

/-- What reading an input gave: its bytes, or why there are none. -/
abbrev Input := Except Files.SystemError (List UInt8)

/-- The report about an input that cannot be read. -/
def unreadable (input : String) (e : Files.SystemError) : Report :=
  .failed fileFailure ("Cannot read '" ++ input ++ "': " ++ e.message) []

/-- Where the text of a conversion goes. -/
def Conversion.plan (c : Conversion) (text : String) (events : List Event) : Plan :=
  match c.output with
  | some path => .write path (text ++ "\n") events
  | none => .show { output := text ++ "\n", events := events }

/-- The events of the complaints about an input. -/
def diagnosticEvents (input : String) (ds : List Diagnostic) : List Event :=
  ds.map fun d => .diagnosed input d.line d.message

/-- The plan of a conversion that has read a diagram. -/
def Conversion.planReading (c : Conversion) (room : Room) (o : Sql.TableOptions) (dialect : Dialect)
    (events : List Event) (r : Reading) : Except Crash Plan :=
  let events := events ++ diagnosticEvents c.input r.diagnostics
  if !r.isClean && c.isStrict then
    .ok (.show (.failed invalidInput (toString r.diagnostics.length ++ " diagnostic(s); aborting (--strict)")
      events))
  else if !c.target.canWrite room.digits r.diagram then .error .unwritable
  else .ok (c.plan (c.target.write o dialect r.diagram) (events ++ c.target.events dialect r.diagram))

/-- The plan of a conversion of a text. -/
def Conversion.planText (c : Conversion) (room : Room) (sheet : Outline.Sheet) (o : Sql.TableOptions)
    (dialect : Dialect) (text : String) : Except Crash Plan :=
  match c.source.overrun? (room.limits (readerCalls c.source)) text with
  | some x => .error (.overrun x)
  | none =>
    match c.source.read sheet dialect text with
    | .ok r => c.planReading room o dialect (c.source.events sheet dialect text) r
    | .error (.json e) =>
      .ok (.show (.failed invalidInput ("Invalid JSON in '" ++ c.input ++ "': " ++ e.message) []))
    | .error (.invalid v) =>
      .ok (.show (.failed invalidInput ("Invalid diagram '" ++ c.input ++ "': " ++ v.message) []))
    | .error (.noGrid e) => .error (.noGrid e)

/-- The plan of a conversion. -/
def Conversion.planInput (c : Conversion) (room : Room) (sheet : Outline.Sheet) (o : Sql.TableOptions)
    (input : Input) : Except Crash Plan :=
  match Dialect.named c.dialect with
  | .error e => .ok (.show (.failed invalidInput e.message []))
  | .ok dialect =>
    match input with
    | .error e => .ok (.show (unreadable c.input e))
    | .ok bytes => (decode bytes).bind (c.planText room sheet o dialect)

/-- The report of a validation of a text. -/
def validation (input text : String) : Report :=
  match Json.read text with
  | .error e => .failed invalidInput ("Invalid JSON: " ++ e.message) []
  | .ok v =>
    match Diagram.firstViolation? v with
    | some f => .failed invalidInput f.message []
    | none => { output := "✓ " ++ input ++ " is a valid diagram\n" }

/-- The plan of a validation of a text. -/
def validationPlan (room : Room) (input text : String) : Except Crash Plan :=
  match Json.overrun? (room.limits 0) text with
  | some x => .error (.overrun x)
  | none => .ok (.show (validation input text))

/-- The plan of a command. -/
def Command.plan (room : Room) (sheet : Outline.Sheet) (o : Sql.TableOptions) (input : Input) :
    Command → Except Crash Plan
  | .convert c => c.planInput room sheet o input
  | .validate name =>
    match input with
    | .error e => .ok (.show (unreadable name e))
    | .ok bytes => (decode bytes).bind (validationPlan room name)

/-- The report after a file was written or could not be. -/
def written (path : String) (events : List Event) : Except Files.SystemError Unit → Report
  | .ok () => { events := events ++ [.fileWritten path] }
  | .error e => .failed fileFailure ("Cannot write '" ++ path ++ "': " ++ e.message) events

/-! ## Running on a tree of files -/

/-- The surroundings of a run. -/
structure World where
  files : Files.Tree := []
  stdin : List UInt8 := []
  room : Room := {}
  deriving DecidableEq, Repr

/-- A path can be passed to the system. -/
def isUsablePath (path : String) : Bool := !path.toList.contains '\x00'

/-- The input with a name. -/
def World.input (w : World) (name : String) : Input :=
  if name = "-" then .ok w.stdin
  else
    let path := Files.Path.ofString name
    (w.files.read path).mapError fun f => ⟨f, path.toString⟩

/-- The files after a text was written to one. -/
def World.write (w : World) (name text : String) : Except Files.SystemError Files.Tree :=
  let path := Files.Path.ofString name
  (w.files.write (encode text) path).mapError fun f => ⟨f, path.toString⟩

/-- A plan carried out. -/
def Plan.run (w : World) : Plan → Except Crash (Report × Files.Tree)
  | .show r => .ok (r, w.files)
  | .write path text events =>
    if !isUsablePath path then .error .unusablePath
    else
      match w.write path text with
      | .ok files => .ok (written path events (.ok ()), files)
      | .error e => .ok (written path events (.error e), w.files)

/-- The dialect that a command names is none. -/
def Command.hasUnknownDialect : Command → Bool
  | .convert c => (Dialect.ofName? c.dialect).isNone
  | .validate _ => false

/-- A command run. -/
def Command.run (sheet : Outline.Sheet) (o : Sql.TableOptions) (w : World) (c : Command) :
    Except Crash (Report × Files.Tree) :=
  if !isUsablePath c.input && !c.hasUnknownDialect then .error .unusablePath
  else (c.plan w.room sheet o (w.input c.input)).bind (Plan.run w)

end Erd.CommandLine
