import Erd.Text.Quoted

/-!
# Grammars of command lines

A grammar says which options a program knows and what its operand is. An option has one or more names: a
short one is a hyphen and a character, a long one starts with two hyphens. The operand is the first
argument that is no option's; of a program with commands the operand is the command, and all that follows
it belongs to it.
-/
namespace Erd.CommandLine

/-- What an option does. -/
inductive Effect where
  /-- Shows how the program is used, and ends it. -/
  | help
  /-- Shows the version, and ends the program. -/
  | version
  /-- Says something by being there. -/
  | mark
  /-- Takes a value, one of the choices if there are any. -/
  | value (choices : List String)
  deriving DecidableEq, Repr

/-- An option. -/
structure Opt where
  names : List String
  effect : Effect
  isRequired : Bool := false
  deriving DecidableEq, Repr

namespace Opt

/-- The option takes a value. -/
def takesValue (o : Opt) : Bool :=
  match o.effect with
  | .value _ => true
  | _ => false

/-- The values that the option may have; any value if there are none. -/
def choices (o : Opt) : List String :=
  match o.effect with
  | .value cs => cs
  | _ => []

/-- How messages name the option. -/
def label (o : Opt) : String := "/".intercalate o.names

end Opt

/-- What a program understands. -/
structure Grammar where
  program : String
  options : List Opt
  /-- How messages name the operand. -/
  operand : String
  /-- The operands that are allowed; any operand if there are none. -/
  choices : List String := []
  /-- All that follows the operand belongs to it. -/
  takesRest : Bool := false
  deriving DecidableEq, Repr

namespace Grammar

/-- The option with a name. -/
def named? (g : Grammar) (name : String) : Option Opt := g.options.find? fun o => o.names.contains name

/-- Every name with its option, in order. -/
def names (g : Grammar) : List (String × Opt) := g.options.flatMap fun o => o.names.map fun n => (n, o)

end Grammar

/-- What is wrong with the arguments. -/
inductive Misuse where
  | ambiguous (given : String) (names : List String)
  | noValue (option : String)
  | unusedValue (option given : String)
  | notAllowed (argument given : String) (choices : List String)
  | missing (arguments : List String)
  | unrecognized (arguments : List String)
  deriving DecidableEq, Repr

/-- The wording of a misuse. -/
def Misuse.message : Misuse → String
  | .ambiguous given names => "ambiguous option: " ++ given ++ " could match " ++ ", ".intercalate names
  | .noValue option => "argument " ++ option ++ ": expected one argument"
  | .unusedValue option given =>
    "argument " ++ option ++ ": ignored explicit argument " ++ Text.quoted given
  | .notAllowed argument given choices =>
    "argument " ++ argument ++ ": invalid choice: " ++ Text.quoted given ++ " (choose from " ++
      ", ".intercalate (choices.map Text.quoted) ++ ")"
  | .missing arguments => "the following arguments are required: " ++ ", ".intercalate arguments
  | .unrecognized arguments => "unrecognized arguments: " ++ " ".intercalate arguments

/-- Why a program ends before it has done anything. -/
inductive Stop where
  | help (program : String)
  | version
  | misused (program : String) (m : Misuse)
  deriving DecidableEq, Repr

/-- A value is among the choices, or there are none. -/
def allows (choices : List String) (value : String) : Bool := choices.isEmpty || choices.contains value

end Erd.CommandLine
