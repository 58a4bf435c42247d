import Erd.CommandLine.Command

/-!
# How the program is used

The texts that the program shows about itself: its version, and a line on how each command is written.
-/
namespace Erd.CommandLine

/-- The text of the version. -/
def versionText : String := programName ++ " " ++ appVersion ++ "\n"

/-- An option as the usage line shows it. -/
def Opt.usage (o : Opt) : String :=
  let name := o.names.headD ""
  let shown :=
    match o.effect with
    | .value [] => name ++ " VALUE"
    | .value choices => name ++ " \x7b" ++ ",".intercalate choices ++ "\x7d"
    | _ => name
  if o.isRequired then shown else "[" ++ shown ++ "]"

/-- The usage line of a grammar. -/
def Grammar.usage (g : Grammar) : String :=
  let operand := if g.choices.isEmpty then g.operand else "\x7b" ++ ",".intercalate g.choices ++ "\x7d"
  "usage: " ++ " ".intercalate
      (g.program :: g.options.map Opt.usage ++ [operand] ++ (if g.takesRest then ["..."] else [])) ++ "\n"

/-- Every grammar of the program. -/
def grammars : List Grammar := [programGrammar, convertGrammar, validateGrammar]

/-- The usage line of a program; empty for a program that is not known. -/
def usageOf (program : String) : String :=
  ((grammars.find? fun g => g.program == program).map Grammar.usage).getD ""

/-- The line of a misuse. -/
def misuseLine (program : String) (m : Misuse) : String := program ++ ": error: " ++ m.message

/-- The status of a run that ends because of its arguments. -/
def Stop.status : Stop → Nat
  | .misused .. => 2
  | _ => 0

/-- What a run that ends because of its arguments shows on the standard output. -/
def Stop.output : Stop → String
  | .help program => usageOf program
  | .version => versionText
  | .misused .. => ""

/-- What it shows on the standard error after the usage line. -/
def Stop.complaint : Stop → String
  | .misused program m => misuseLine program m
  | _ => ""

end Erd.CommandLine
