import Erd.CommandLine.Scan
import Erd.Interchange
import Erd.Settings

/-!
# The commands

The program has two commands: one converts a text from a format to another, the other validates a diagram
document. A hyphen as input stands for the standard input.
-/
namespace Erd.CommandLine

/-- A conversion. -/
structure Conversion where
  input : String
  source : InputFormat
  target : OutputFormat
  /-- The name of the dialect, which is only looked up when the command runs. -/
  dialect : String
  /-- The file that is written, instead of the standard output. -/
  output : Option String := none
  isStrict : Bool := false
  deriving DecidableEq, Repr

/-- What the program is asked to do. -/
inductive Command where
  | convert (c : Conversion)
  | validate (input : String)
  deriving DecidableEq, Repr

/-- The name of the program. -/
def programName : String := "schema-interchange"

/-- The option that shows how a program is used. -/
def helpOption : Opt := { names := ["-h", "--help"], effect := .help }

/-- The grammar of the program: a command and what belongs to it. -/
def programGrammar : Grammar where
  program := programName
  options := [helpOption, { names := ["--version"], effect := .version }]
  operand := "command"
  choices := ["convert", "validate"]
  takesRest := true

/-- The grammar of a conversion. -/
def convertGrammar : Grammar where
  program := programName ++ " convert"
  options :=
    [helpOption,
      { names := ["--from"], effect := .value (InputFormat.all.map InputFormat.name), isRequired := true },
      { names := ["--to"], effect := .value (OutputFormat.all.map OutputFormat.name), isRequired := true },
      { names := ["--dialect"], effect := .value (Dialect.all.map Dialect.name) },
      { names := ["-o", "--output"], effect := .value [] },
      { names := ["--strict"], effect := .mark }]
  operand := "input"

/-- The grammar of a validation. -/
def validateGrammar : Grammar where
  program := programName ++ " validate"
  options := [helpOption]
  operand := "input"

/-- The conversion that was scanned. A format is one of the choices by then, and an empty name of an output
is none. -/
def Scan.conversion (settings : Settings) (s : Scan) : Conversion where
  input := s.operand.getD ""
  source := ((s.value? "--from").bind InputFormat.ofName?).getD .document
  target := ((s.value? "--to").bind OutputFormat.ofName?).getD .document
  dialect := (s.value? "--dialect").getD settings.dialect
  output := (s.value? "--output").filter (· ≠ "")
  isStrict := s.has "--strict"

/-- The command, if nothing is left over. -/
def accepted (outer inner : Scan) (c : Command) : Except Stop Command :=
  match outer.extras ++ inner.extras with
  | [] => .ok c
  | extras => .error (.misused programName (.unrecognized extras))

/-- Reads the arguments of the program. -/
def Command.ofArguments (settings : Settings) (args : List String) : Except Stop Command := do
  let outer ← programGrammar.scan args
  if outer.operand = some "convert" then
    let inner ← convertGrammar.scan outer.rest
    accepted outer inner (.convert (inner.conversion settings))
  else
    let inner ← validateGrammar.scan outer.rest
    accepted outer inner (.validate (inner.operand.getD ""))

/-- The input of a command. -/
def Command.input : Command → String
  | .convert c => c.input
  | .validate input => input

end Erd.CommandLine
