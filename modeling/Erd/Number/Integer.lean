import Erd.Text.Blank
import Erd.Text.DigitTable
import Erd.Text.Quoted

/-!
# Integers in settings

A setting may be written with blanks around it, a sign, digits of any script and single underscores
between digits.
-/
namespace Erd

/-- The value of a decimal digit of any script. -/
def digitValue? (c : Char) : Option Nat :=
  if c.isDigit then some (c.toNat - 48)
  else (Text.digitZeros.find? fun z => z ≤ c.toNat && c.toNat < z + 10).map (c.toNat - ·)

/-- A blank around an integer: of the control characters only tabs and the ends of lines and pages. -/
def isNumberBlank (c : Char) : Bool :=
  if c.toNat < 128 then c == ' ' || (9 ≤ c.toNat && c.toNat ≤ 13) else Text.isBlank c

/-- Digits, continuing `acc`, with single underscores between them; then blanks to the end. -/
def digitsFrom? (acc : Nat) : List Char → Option Nat
  | [] => some acc
  | '_' :: c :: s => (digitValue? c).bind fun d => digitsFrom? (acc * 10 + d) s
  | c :: s =>
    match digitValue? c with
    | some d => digitsFrom? (acc * 10 + d) s
    | none => if (c :: s).all isNumberBlank then some acc else none

/-- A natural number: a digit, then more. -/
def natural? : List Char → Option Nat
  | c :: s => (digitValue? c).bind fun d => digitsFrom? d s
  | [] => none

/-- The integer that a text names. -/
def integer? (s : String) : Option Int :=
  match s.toList.dropWhile isNumberBlank with
  | '-' :: rest => (natural? rest).map fun n => -(n : Int)
  | '+' :: rest => (natural? rest).map fun n => (n : Int)
  | rest => (natural? rest).map fun n => (n : Int)

end Erd
