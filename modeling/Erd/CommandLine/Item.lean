import Erd.CommandLine.Grammar
import Erd.Number.Integer

/-!
# Arguments by kind

Before anything is done with the arguments each is told apart: a plain one, an option, or the two hyphens
after which all are plain. A long option may be cut short as long as one option only has a name that starts
so. An argument that could be an option and is none is still plain if it is a negative number or has a
blank in it.
-/
namespace Erd.CommandLine

/-- The value that an argument gives to the option that it names. -/
inductive Given where
  | nothing
  /-- The value follows the short name directly. -/
  | attached (text : List Char)
  /-- The value follows an equals sign. -/
  | assigned (text : List Char)
  deriving DecidableEq, Repr

/-- An option as an argument names it. -/
structure Use where
  option : Opt
  name : String
  given : Given := .nothing
  deriving DecidableEq, Repr

/-- An argument. -/
inductive Item where
  | plain (text : String)
  | separator
  | use (text : String) (u : Use)
  | unknown (text : String)
  deriving DecidableEq, Repr

/-- The argument itself. -/
def Item.text : Item → String
  | .plain text => text
  | .separator => "--"
  | .use text _ => text
  | .unknown text => text

/-- An argument at its first equals sign: what stands before it, and what is given after it. -/
def splitAssigned (arg : List Char) : String × Given :=
  match arg.dropWhile (· ≠ '=') with
  | _ :: text => (String.ofList (arg.takeWhile (· ≠ '=')), .assigned text)
  | [] => (String.ofList arg, .nothing)

/-- A hyphen before a whole number or a decimal fraction. -/
def isNegativeNumber : List Char → Bool
  | '-' :: s =>
    let isDigit (c : Char) : Bool := (digitValue? c).isSome
    let s := if s.getLast? = some '\n' then s.dropLast else s
    match s.dropWhile isDigit with
    | [] => !s.isEmpty
    | '.' :: fraction => !fraction.isEmpty && fraction.all isDigit
    | _ => false
  | _ => false

namespace Grammar

/-- The option that an argument names in full, with a value after an equals sign or without. -/
def inFull? (g : Grammar) (arg : List Char) : Option Use :=
  match g.named? (String.ofList arg) with
  | some o => some { option := o, name := String.ofList arg }
  | none =>
    match splitAssigned arg with
    | (_, .nothing) => none
    | (name, given) => (g.named? name).map fun o => { option := o, name := name, given := given }

/-- The options that an argument may mean. -/
def possible (g : Grammar) (arg : List Char) : List Use :=
  match arg with
  | '-' :: '-' :: _ =>
    let (start, given) := splitAssigned arg
    (g.names.filter fun n => start.toList.isPrefixOf n.1.toList).map fun n =>
      { option := n.2, name := n.1, given := given }
  | '-' :: c :: text =>
    g.names.filterMap fun n =>
      if n.1.toList = ['-', c] then some { option := n.2, name := n.1, given := .attached text }
      else if arg.isPrefixOf n.1.toList then some { option := n.2, name := n.1 }
      else none
  | _ => []

/-- An argument before any two hyphens. -/
def item (g : Grammar) (arg : String) : Except Misuse Item :=
  match arg.toList with
  | '-' :: c :: s =>
    let cs := '-' :: c :: s
    match g.inFull? cs with
    | some u => .ok (.use arg u)
    | none =>
      match g.possible cs with
      | [] => .ok (if isNegativeNumber cs || cs.contains ' ' then .plain arg else .unknown arg)
      | [u] => .ok (.use arg u)
      | us => .error (.ambiguous arg (us.map Use.name))
  | _ => .ok (.plain arg)

/-- All arguments. -/
def items (g : Grammar) : List String → Except Misuse (List Item)
  | [] => .ok []
  | arg :: args =>
    if arg = "--" then .ok (.separator :: args.map .plain)
    else
      match g.item arg with
      | .error m => .error m
      | .ok i => (g.items args).map (i :: ·)

end Grammar

end Erd.CommandLine
