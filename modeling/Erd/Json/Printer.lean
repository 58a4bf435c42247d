import Erd.Json.Basic
import Erd.Number.Shortest
import Erd.Text.Quoted

/-!
# Writing JSON

Values are written over several lines, each level two blanks deeper than the one around it. All but the
printable characters of ASCII is escaped, by UTF-16 units.
-/
namespace Erd.Json

/-- An escape by unit. -/
def unitEscape (n : Nat) : List Char := '\\' :: 'u' :: Text.hex 4 n

/-- A character inside a string. -/
def stringChar (c : Char) : List Char :=
  if c = '"' then ['\\', '"']
  else if c = '\\' then ['\\', '\\']
  else if c = '\n' then ['\\', 'n']
  else if c = '\r' then ['\\', 'r']
  else if c = '\t' then ['\\', 't']
  else if c = '\x0C' then ['\\', 'f']
  else if c = '\x08' then ['\\', 'b']
  else if 32 ≤ c.toNat && c.toNat < 127 then [c]
  else if c.toNat < 0x10000 then unitEscape c.toNat
  else
    let n := c.toNat - 0x10000
    unitEscape (0xD800 + n / 0x400) ++ unitEscape (0xDC00 + n % 0x400)

/-- A string between double quotes. -/
def stringText (s : String) : List Char := '"' :: s.toList.flatMap stringChar ++ ['"']

/-- A number with a fraction or an exponent, or one of the three that have no digits. -/
def floatText : Binary64 → List Char
  | .finite negative m q => Binary64.finiteText negative m q
  | .infinite negative => (if negative then "-Infinity" else "Infinity").toList
  | .notANumber => "NaN".toList

/-- The digits of an integer after its sign. -/
def intText (n : Int) : List Char := (toString n).toList

/-- A line end and the blanks before the next line's text. -/
def newLine (level : Nat) : List Char := '\n' :: List.replicate (2 * level) ' '

mutual

/-- A value whose first line is `level` levels deep. -/
def textAt (level : Nat) : Json → List Char
  | .null => "null".toList
  | .bool b => (if b then "true" else "false").toList
  | .int n => intText n
  | .float x => floatText x
  | .str s => stringText s
  | .arr [] => ['[', ']']
  | .arr (v :: vs) =>
    '[' :: newLine (level + 1) ++ textAt (level + 1) v ++ itemsText level vs ++ newLine level ++ [']']
  | .obj [] => ['\x7b', '\x7d']
  | .obj (f :: fs) =>
    '\x7b' :: newLine (level + 1) ++ memberText (level + 1) f ++ membersText level fs ++
      newLine level ++ ['\x7d']

/-- The further items of an array, each after a comma. -/
def itemsText (level : Nat) : List Json → List Char
  | [] => []
  | v :: vs => ',' :: newLine (level + 1) ++ textAt (level + 1) v ++ itemsText level vs

/-- A key with its value. -/
def memberText (level : Nat) : String × Json → List Char
  | (key, v) => stringText key ++ ':' :: ' ' :: textAt level v

/-- The further members of an object, each after a comma. -/
def membersText (level : Nat) : List (String × Json) → List Char
  | [] => []
  | f :: fs => ',' :: newLine (level + 1) ++ memberText (level + 1) f ++ membersText level fs

end

/-- The text of a value. -/
def print (v : Json) : String := String.ofList (textAt 0 v)

end Erd.Json
