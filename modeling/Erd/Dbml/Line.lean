import Erd.Dbml.TypeName
import Erd.Outline
import Erd.Text.Word

/-!
# Lines of DBML

DBML is read line by line. The forms of a line are the header of a table, a column with or without
settings in square brackets, and a reference between two columns. Names are words, or any text between
double quotes.
-/
namespace Erd.Dbml

open Text

/-- A line without the blanks around it, with its number in the text. -/
structure Line where
  number : Nat
  text : List Char
  deriving DecidableEq, Repr

/-- The line is blank or a comment. -/
def Line.isIdle (l : Line) : Bool :=
  match l.text with
  | [] => true
  | '/' :: '/' :: _ => true
  | '-' :: '-' :: _ => true
  | _ => false

/-- The lines of a text, numbered from one. -/
def numberedLines (s : List Char) : List Line :=
  (lines s).mapIdx fun i l => ⟨i + 1, trim l⟩

/-! ## Names -/

/-- A text between double quotes at the front, without them, and the rest. -/
def quotedName? (s : List Char) : Option (List Char × List Char) :=
  match s with
  | '"' :: inside =>
    match inside.takeWhile (· ≠ '"'), inside.dropWhile (· ≠ '"') with
    | c :: name, _ :: rest => some (c :: name, rest)
    | _, _ => none
  | _ => none

/-- A name at the front, without its quotes, and the rest. -/
def name? (s : List Char) : Option (List Char × List Char) :=
  match quotedName? s with
  | some r => some r
  | none => if (leadingWord s).isEmpty then none else some (leadingWord s, afterWord s)

/-- The text without double quotes at both ends. -/
def dropQuotes (s : List Char) : List Char :=
  match s with
  | '"' :: c :: rest => if (c :: rest).getLast? == some '"' then (c :: rest).dropLast else s
  | _ => s

/-- A column and the table it belongs to, by name. -/
structure ColumnName where
  table : String
  column : String
  deriving DecidableEq, Repr

/-- Two names with a point between them, and the rest. -/
def columnName? (s : List Char) : Option (ColumnName × List Char) :=
  match name? s with
  | some (table, '.' :: rest) =>
    (name? rest).map fun (column, rest) => (⟨String.ofList table, String.ofList column⟩, rest)
  | _ => none

/-! ## Headers -/

/-- The header of a table: its name, and whether the brace that opens its block follows. -/
structure Header where
  name : String
  opens : Bool
  deriving DecidableEq, Repr

/-- Reads a header. -/
def header? (s : List Char) : Option Header :=
  match ((keyword "table" s).bind skipBlanks?).bind name? with
  | none => none
  | some (name, rest) =>
    match trimStart rest with
    | [] => some ⟨String.ofList name, false⟩
    | '\x7b' :: rest => if isBlankText rest then some ⟨String.ofList name, true⟩ else none
    | _ => none

/-! ## References -/

/-- A reference between two columns, the source first. -/
structure Ref where
  cardinality : Cardinality
  source : ColumnName
  target : ColumnName
  deriving DecidableEq, Repr

/-- The text after the word and the colon that announce a reference. -/
def refText? (s : List Char) : Option (List Char) :=
  match (keyword "ref" s).map trimStart with
  | some (':' :: rest) => some rest
  | _ => none

/-- The sign between the columns of a reference. -/
inductive Sign where
  | one
  | less
  | greater
  | many
  deriving DecidableEq, Repr

/-- A sign at the front, and the rest. -/
def sign? : List Char → Option (Sign × List Char)
  | '<' :: '>' :: s => some (.many, s)
  | '<' :: s => some (.less, s)
  | '>' :: s => some (.greater, s)
  | '-' :: s => some (.one, s)
  | _ => none

/-- The reference that a sign makes of the columns on its two sides: the column on the one side of a
relationship between one and many is the source. -/
def Sign.ref (left right : ColumnName) : Sign → Ref
  | .one => ⟨.oneToOne, left, right⟩
  | .less => ⟨.oneToMany, left, right⟩
  | .greater => ⟨.oneToMany, right, left⟩
  | .many => ⟨.manyToMany, left, right⟩

/-- Reads a reference. -/
def ref? (s : List Char) : Option Ref :=
  match ((refText? s).map trimStart).bind columnName? with
  | none => none
  | some (left, rest) =>
    match sign? (trimStart rest) with
    | none => none
    | some (sign, rest) =>
      match columnName? (trimStart rest) with
      | some (right, rest) => if isBlankText rest then some (sign.ref left right) else none
      | none => none

/-! ## Columns -/

/-- A column with the column that its settings refer to. -/
structure ColumnLine where
  column : Outline.Column
  refersTo : Option ColumnName
  deriving DecidableEq, Repr

/-- Why a line is no column. -/
inductive ColumnFault where
  | invalid
  | unknownType (spelling name : String)
  deriving DecidableEq, Repr

/-- The text before the bracket that the last character of a line closes, and what is in the bracket. It
opens at the first place, after the first character of the line, from which no other bracket closes. -/
def bracketAfter? : List Char → Option (List Char × List Char)
  | [] => none
  | c :: s =>
    if c = '[' && s.dropWhile (· ≠ ']') == [']'] then some ([], s.takeWhile (· ≠ ']'))
    else (bracketAfter? s).map fun (before, inside) => (c :: before, inside)

/-- A column line cut into its main part and its settings. -/
def splitSettings (s : List Char) : List Char × Option (List Char) :=
  match s with
  | [] => ([], none)
  | c :: rest =>
    match bracketAfter? rest with
    | some (before, inside) => (trimEnd (c :: before), some (trim inside))
    | none => (s, none)

/-- The word after blanks, where a type stands. -/
def wordAfterBlanks? (s : List Char) : Option (List Char) :=
  match (skipBlanks? s).map (List.takeWhile fun c => !isBlank c) with
  | some (c :: word) => some (c :: word)
  | _ => none

/-- The first two words, between which there are blanks: a name, which may be quoted, and a type. -/
def nameAndType? (s : List Char) : Option (List Char × List Char) :=
  match (quotedName? s).bind fun (name, rest) => (wordAfterBlanks? rest).map fun type => (name, type) with
  | some r => some r
  | none =>
    match s.takeWhile fun c => !isBlank c with
    | [] => none
    | word => (wordAfterBlanks? (s.dropWhile fun c => !isBlank c)).map fun type => (dropQuotes word, type)

/-- A reference among settings, after its announcement: signs, then a column. -/
def settingRef? (s : List Char) : Option ColumnName :=
  let isSign (c : Char) : Bool := c == '<' || c == '>' || c == '-'
  if (s.takeWhile isSign).isEmpty then none
  else match columnName? (trimStart (s.dropWhile isSign)) with
    | some (name, []) => some name
    | _ => none

/-- One setting of a column. -/
inductive Setting where
  | primaryKey
  | unique
  | nullable
  | notNull
  | refersTo (c : ColumnName)
  | other
  deriving DecidableEq, Repr

/-- Reads a setting in small letters. -/
def Setting.read (s : List Char) : Setting :=
  if s = "pk".toList || s = "primary key".toList then .primaryKey
  else if s = "unique".toList then .unique
  else if s = "null".toList then .nullable
  else if s = "not null".toList then .notNull
  else match dropKeyword "ref:".toList s with
    | some rest =>
      match settingRef? (trim rest) with
      | some c => .refersTo c
      | none => .other
    | none => .other

/-- What the settings read so far make of a column. -/
structure Settings where
  constraints : Constraints := { isNullable := false }
  refersTo : Option ColumnName := none
  deriving DecidableEq, Repr

/-- The settings with one more. -/
def Settings.add (s : Settings) : Setting → Settings
  | .primaryKey =>
    { s with constraints := { s.constraints with isPrimaryKey := true, isNullable := false } }
  | .unique => { s with constraints := { s.constraints with isUnique := true } }
  | .nullable => { s with constraints := { s.constraints with isNullable := true } }
  | .notNull => { s with constraints := { s.constraints with isNullable := false } }
  | .refersTo c =>
    { constraints := { s.constraints with isForeignKey := true }, refersTo := some c }
  | .other => s

/-- Reads the settings between brackets: case does not matter, and what is not known is passed over. -/
def Settings.read (s : List Char) : Settings :=
  ((splitOn ',' s).map fun part => Setting.read (lower (trim part))).foldl Settings.add {}

/-- A column without settings can be null; one with settings only if they say so. -/
def settingsOf : Option (List Char) → Settings
  | some (c :: s) => Settings.read (c :: s)
  | _ => { constraints := {} }

/-- Reads a column line. -/
def ColumnLine.read (s : List Char) : Except ColumnFault ColumnLine :=
  let (main, bracket) := splitSettings s
  match nameAndType? main with
  | none => .error .invalid
  | some (name, spelling) =>
    match columnType? spelling with
    | none => .error (.unknownType (String.ofList spelling) (String.ofList name))
    | some type =>
      let settings := settingsOf bracket
      .ok ⟨⟨String.ofList name, type, settings.constraints⟩, settings.refersTo⟩

end Erd.Dbml
