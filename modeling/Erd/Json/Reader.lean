import Erd.Json.Basic

/-!
# Reading JSON

A reader takes a value off the front of a text and hands back the rest. Where it stops, it says what it
looked for and how much of the text was left, from which line and column follow.

Beside the numbers of the standard it takes `NaN`, `Infinity` and `-Infinity`.

A reader may have limits: to the digits of a whole number, and to the arrays and objects that are open at
once. One that runs into a limit stops there, though the text has no fault. Half a pair of units is no
character, so that it has no place in a string here: a reader stops at it too, or takes it for the replacement
character. `read` has no limits and replaces; `readWithin` is told its limits.
-/
namespace Erd.Json

/-! ## Limits -/

/-- What stops a reader where the text has no fault. -/
inductive Overrun where
  /-- A whole number with this many digits, too many. -/
  | digits (count : Nat)
  /-- One array or object too many within one another. -/
  | nesting
  /-- Half a pair of units on its own. -/
  | halfPair
  deriving DecidableEq, Repr

/-- The wording of what stops a reader. -/
def Overrun.text : Overrun → String
  | .digits count => "Too many digits in a whole number: " ++ toString count
  | .nesting => "Too many arrays and objects within one another"
  | .halfPair => "Half a pair of units on its own"

/-- How far a reader goes. -/
structure Limits where
  /-- The most digits of a whole number. -/
  digits : Option Nat := none
  /-- The most arrays and objects within one another. -/
  nesting : Option Nat := none
  /-- Half a pair of units on its own is not replaced. -/
  pairsOnly : Bool := false
  deriving DecidableEq, Repr

/-- The limits inside one more array or object, if one more may be opened. -/
def Limits.enter? (l : Limits) : Option Limits :=
  match l.nesting with
  | none => some l
  | some 0 => none
  | some (n + 1) => some { l with nesting := some n }

/-- What the reader looked for where it stopped. -/
inductive Fault where
  | value
  | propertyName
  | colon
  | comma
  | endOfText
  | byteOrderMark
  | controlCharacter
  | unterminated
  | escape
  | unicodeEscape
  | overrun (o : Overrun)
  deriving DecidableEq, Repr

/-- The wording of a fault. -/
def Fault.text : Fault → String
  | .value => "Expecting value"
  | .propertyName => "Expecting property name enclosed in double quotes"
  | .colon => "Expecting ':' delimiter"
  | .comma => "Expecting ',' delimiter"
  | .endOfText => "Extra data"
  | .byteOrderMark => "Unexpected UTF-8 BOM (decode using utf-8-sig)"
  | .controlCharacter => "Invalid control character at"
  | .unterminated => "Unterminated string starting at"
  | .escape => "Invalid \\escape"
  | .unicodeEscape => "Invalid \\uXXXX escape"
  | .overrun o => o.text

/-- A fault and how many characters of the text were left at it. -/
structure Stop where
  fault : Fault
  left : Nat
  deriving DecidableEq, Repr

/-- The fault is found inside an array, an object or a string; telling it takes calls of its own. -/
def Fault.takesCalls : Fault → Bool
  | .propertyName | .colon | .comma | .controlCharacter | .unterminated | .escape | .unicodeEscape => true
  | _ => false

/-- How many calls it takes. -/
def faultCalls : Nat := 3

/-- A stop as it is told: where less room is left than that takes, the limit to nesting is run into instead. -/
def Limits.tell (l : Limits) (stop : Stop) : Stop :=
  if stop.fault.takesCalls && l.nesting.any (· < faultCalls) then { stop with fault := .overrun .nesting }
  else stop

/-- A value and the rest of the text after it. -/
abbrev Step (α : Type) := Except Stop (α × List Char)

/-- A blank between the parts of a value. -/
def isSpace (c : Char) : Bool := c == ' ' || c == '\t' || c == '\n' || c == '\r'

/-- The text after its leading blanks. -/
def skip (s : List Char) : List Char := s.dropWhile isSpace

/-! ## Strings -/

/-- The value of a digit of base sixteen. -/
def hexValue? (c : Char) : Option Nat :=
  if c.isDigit then some (c.toNat - 48)
  else if 'a' ≤ c && c ≤ 'f' then some (c.toNat - 87)
  else if 'A' ≤ c && c ≤ 'F' then some (c.toNat - 55)
  else none

/-- The value of four digits of base sixteen. -/
def hexFour? (a b c d : Char) : Option Nat := do
  return (((← hexValue? a) * 16 + (← hexValue? b)) * 16 + (← hexValue? c)) * 16 + (← hexValue? d)

/-- The first half of a pair of units that name one character. -/
def isHighUnit (n : Nat) : Bool := 0xD800 ≤ n && n ≤ 0xDBFF

/-- The second half of such a pair. -/
def isLowUnit (n : Nat) : Bool := 0xDC00 ≤ n && n ≤ 0xDFFF

/-- The character that a unit names; half a pair on its own names the replacement character. -/
def unitChar (n : Nat) : Char := if isHighUnit n || isLowUnit n then '\uFFFD' else Char.ofNat n

/-- The character of a unit that makes no pair, before the rest of a text. -/
def loneUnit (l : Limits) (n : Nat) (rest : List Char) : Step Char :=
  if l.pairsOnly && (isHighUnit n || isLowUnit n) then .error ⟨.overrun .halfPair, rest.length⟩
  else .ok (unitChar n, rest)

/-- The character that a pair of units names. -/
def pairChar (high low : Nat) : Char := Char.ofNat (0x10000 + (high - 0xD800) * 0x400 + (low - 0xDC00))

/-- The character that stands for itself or for a control character after a backslash. -/
def escaped? : Char → Option Char
  | '"' => some '"'
  | '\\' => some '\\'
  | '/' => some '/'
  | 'b' => some '\x08'
  | 'f' => some '\x0C'
  | 'n' => some '\n'
  | 'r' => some '\r'
  | 't' => some '\t'
  | _ => none

/-- An escape by unit, after its `u`: the character and the rest. Two escapes that make a pair are read as
one. Something must follow the digits. -/
def unit (l : Limits) (s : List Char) : Step Char :=
  match s with
  | a :: b :: c :: d :: e :: rest =>
    match hexFour? a b c d with
    | none => .error ⟨.unicodeEscape, s.length + 1⟩
    | some high =>
      match e, rest with
      | '\\', 'u' :: a' :: b' :: c' :: d' :: e' :: rest' =>
        if isHighUnit high then
          match hexFour? a' b' c' d' with
          | none => .error ⟨.unicodeEscape, rest.length⟩
          | some low =>
            if isLowUnit low then .ok (pairChar high low, e' :: rest')
            else loneUnit l high (e :: rest)
        else loneUnit l high (e :: rest)
      | _, _ => loneUnit l high (e :: rest)
  | _ => .error ⟨.unicodeEscape, s.length + 1⟩

theorem eq_of_loneUnit {l : Limits} {n : Nat} {c : Char} {s rest : List Char}
    (h : loneUnit l n s = .ok (c, rest)) : rest = s := by
  unfold loneUnit at h
  split at h
  · cases h
  · cases h
    rfl

theorem unit_length {l : Limits} {s : List Char} {c : Char} {rest : List Char} (h : unit l s = .ok (c, rest)) :
    rest.length < s.length := by
  unfold unit at h
  repeat' split at h
  all_goals first
    | contradiction
    | (obtain rfl := eq_of_loneUnit h; simp)
    | (simp at h; obtain ⟨-, rfl⟩ := h; simp; try omega)

/-- The characters of a string after its opening quote, where `opening` characters were left at that
quote, and the rest after the closing one. -/
def string (l : Limits) (opening : Nat) (s : List Char) : Step (List Char) :=
  match s with
  | [] => .error ⟨.unterminated, opening⟩
  | '"' :: rest => .ok ([], rest)
  | '\\' :: 'u' :: rest =>
    match h : unit l rest with
    | .error stop => .error stop
    | .ok (c, rest') =>
      have := unit_length h
      (string l opening rest').map fun (cs, left) => (c :: cs, left)
  | ['\\'] => .error ⟨.unterminated, opening⟩
  | '\\' :: e :: rest =>
    match escaped? e with
    | some c => (string l opening rest).map fun (cs, left) => (c :: cs, left)
    | none => .error ⟨.escape, rest.length + 2⟩
  | c :: rest =>
    if c.toNat < 32 then .error ⟨.controlCharacter, rest.length + 1⟩
    else (string l opening rest).map fun (cs, left) => (c :: cs, left)
termination_by s.length
decreasing_by all_goals simp; try omega

/-! ## Numbers and words -/

/-- The digits of a whole number: a zero on its own, or digits that start with another. -/
def wholeDigits? : List Char → Option (List Char × List Char)
  | '0' :: rest => some (['0'], rest)
  | c :: rest => if c.isDigit then some (c :: rest.takeWhile Char.isDigit, rest.dropWhile Char.isDigit) else none
  | [] => none

/-- The digits after a point, if a point and a digit are there. -/
def fraction (s : List Char) : Option (List Char) × List Char :=
  match s with
  | '.' :: c :: rest =>
    if c.isDigit then (some (c :: rest.takeWhile Char.isDigit), rest.dropWhile Char.isDigit) else (none, s)
  | _ => (none, s)

/-- The value of decimal digits. -/
def ofDigits (ds : List Char) : Nat := ds.foldl (fun n c => n * 10 + (c.toNat - 48)) 0

/-- The digits of an exponent after its sign, if there are any. -/
def exponentDigits? (negative : Bool) (s : List Char) : Option (Int × List Char) :=
  match s with
  | c :: _ =>
    if c.isDigit then
      let n : Int := ofDigits (s.takeWhile Char.isDigit)
      some (if negative then -n else n, s.dropWhile Char.isDigit)
    else none
  | [] => none

/-- The exponent that a text starts with. -/
def exponent? : List Char → Option (Int × List Char)
  | c :: rest =>
    if c = 'e' || c = 'E' then
      match rest with
      | '-' :: ds => exponentDigits? true ds
      | '+' :: ds => exponentDigits? false ds
      | ds => exponentDigits? false ds
    else none
  | [] => none

/-- A number without its sign: a whole one if neither a fraction nor an exponent follows the digits. Only the
digits of a whole one are limited. -/
def magnitude? (l : Limits) (negative : Bool) (s : List Char) : Option (Step Json) := do
  let (whole, rest) ← wholeDigits? s
  let (frac, rest) := fraction rest
  match frac, exponent? rest with
  | none, none =>
    if l.digits.any (· < whole.length) then some (.error ⟨.overrun (.digits whole.length), rest.length⟩)
    else
      let n : Int := ofDigits whole
      some (.ok (.int (if negative then -n else n), rest))
  | frac, power =>
    let digits := frac.getD []
    let (e, rest) := power.getD (0, rest)
    some (.ok (.float (.ofDecimal negative (ofDigits (whole ++ digits)) (e - digits.length)), rest))

/-- A number, which may have a sign. -/
def number? (l : Limits) : List Char → Option (Step Json)
  | '-' :: rest => magnitude? l true rest
  | s => magnitude? l false s

/-- The text after a word that it starts with. -/
def word? : List Char → List Char → Option (List Char)
  | [], s => some s
  | _ :: _, [] => none
  | c :: cs, d :: s => if c = d then word? cs s else none

/-- The words that stand for values. -/
def namedValues : List (String × Json) :=
  [("null", .null), ("true", .bool true), ("false", .bool false), ("NaN", .float .notANumber),
    ("Infinity", .float (.infinite false)), ("-Infinity", .float (.infinite true))]

/-- The value whose word the text starts with. -/
def named? (s : List Char) : Option (Json × List Char) :=
  namedValues.findSome? fun (name, v) => (word? name.toList s).map fun rest => (v, rest)

/-- A number or a named value. -/
def scalar (l : Limits) (s : List Char) : Step Json :=
  match named? s with
  | some r => .ok r
  | none =>
    match number? l s with
    | some r => r
    | none => .error ⟨.value, s.length⟩

/-! ## Values -/

mutual

/-- A value off the front of a text, within limits. The number bounds the depth of the calls. -/
def value : Limits → Nat → List Char → Step Json
  | _, 0, s => .error ⟨.value, s.length⟩
  | l, depth + 1, s =>
    match s with
    | '"' :: rest => (string l s.length rest).map fun (cs, left) => (.str (.ofList cs), left)
    | '{' :: rest =>
      match l.enter? with
      | none => .error ⟨.overrun .nesting, s.length⟩
      | some inner =>
        match skip rest with
        | '}' :: left => .ok (.obj [], left)
        | inside =>
          ((members inner depth inside).mapError inner.tell).map fun (ms, left) => (.obj (ofMembers ms), left)
    | '[' :: rest =>
      match l.enter? with
      | none => .error ⟨.overrun .nesting, s.length⟩
      | some inner =>
        match skip rest with
        | ']' :: left => .ok (.arr [], left)
        | inside => ((items inner depth inside).mapError inner.tell).map fun (vs, left) => (.arr vs, left)
    | _ => scalar l s

/-- The items of an array up to its closing bracket, at least one. -/
def items : Limits → Nat → List Char → Step (List Json)
  | _, 0, s => .error ⟨.value, s.length⟩
  | l, depth + 1, s =>
    match value l depth s with
    | .error stop => .error stop
    | .ok (v, rest) =>
      match skip rest with
      | ']' :: left => .ok ([v], left)
      | ',' :: more => (items l depth (skip more)).map fun (vs, left) => (v :: vs, left)
      | other => .error ⟨.comma, other.length⟩

/-- The members of an object up to its closing brace, at least one. -/
def members : Limits → Nat → List Char → Step (List (String × Json))
  | _, 0, s => .error ⟨.value, s.length⟩
  | l, depth + 1, s =>
    match s with
    | '"' :: rest =>
      match string l s.length rest with
      | .error stop => .error stop
      | .ok (key, rest) =>
        match skip rest with
        | ':' :: rest =>
          match value l depth (skip rest) with
          | .error stop => .error stop
          | .ok (v, rest) =>
            match skip rest with
            | '}' :: left => .ok ([(.ofList key, v)], left)
            | ',' :: more =>
              (members l depth (skip more)).map fun (ms, left) => ((.ofList key, v) :: ms, left)
            | other => .error ⟨.comma, other.length⟩
        | other => .error ⟨.colon, other.length⟩
    | _ => .error ⟨.propertyName, s.length⟩

end

/-- Where reading a text failed. -/
structure ReadError where
  fault : Fault
  line : Nat
  column : Nat
  offset : Nat
  deriving DecidableEq, Repr

/-- The error for a stop in a text: lines and columns count from one. -/
def Stop.inText (stop : Stop) (s : List Char) : ReadError :=
  let before := s.take (s.length - stop.left)
  { fault := stop.fault
    line := before.count '\n' + 1
    column := (before.reverse.takeWhile (· ≠ '\n')).length + 1
    offset := before.length }

/-- The wording of an error with its place. -/
def ReadError.message (e : ReadError) : String :=
  e.fault.text ++ ": line " ++ toString e.line ++ " column " ++ toString e.column ++
    " (char " ++ toString e.offset ++ ")"

/-- A value that takes up the whole text, blanks aside. -/
def wholeText (l : Limits) (s : List Char) : Except Stop Json :=
  match s with
  | '\uFEFF' :: _ => .error ⟨.byteOrderMark, s.length⟩
  | _ =>
    match (value l (2 * s.length + 2) (skip s)).mapError l.tell with
    | .error stop => .error stop
    | .ok (v, rest) =>
      match skip rest with
      | [] => .ok v
      | other => .error ⟨.endOfText, other.length⟩

/-- Reads the text of one JSON value within limits. -/
def readWithin (l : Limits) (text : String) : Except ReadError Json :=
  (wholeText l text.toList).mapError (·.inText text.toList)

/-- What reading a text within limits runs into. -/
def overrun? (l : Limits) (text : String) : Option Overrun :=
  match readWithin l text with
  | .error ⟨.overrun o, _, _, _⟩ => some o
  | _ => none

/-- Reads the text of one JSON value. -/
def read (text : String) : Except ReadError Json := readWithin {} text

end Erd.Json
