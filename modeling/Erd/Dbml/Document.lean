import Erd.Dbml.Line

/-!
# Documents of DBML

A document is a sequence of table blocks and references. A block is a header, the brace that opens it on
the same or the next line, columns, and a closing brace on a line of its own. Blank lines and comments may
stand anywhere.

Reading goes through the lines once and hands out entries in order: a table when its block ends, a
reference, or a fault with its line. A header always starts a block, also inside an open one, which then
ends unclosed.
-/
namespace Erd.Dbml

open Text

/-- What is wrong with a line. -/
inductive Fault where
  | unclosed (table : String)
  | braceExpected (table : String)
  | invalidColumn (text : String)
  | unknownType (spelling column : String)
  | invalidRef (text : String)
  | unexpected (text : String)
  | unknownTable
  | unknownColumn
  deriving DecidableEq, Repr

/-- The wording of a fault. -/
def Fault.message : Fault → String
  | .unclosed table => "Unclosed Table block: \"" ++ table ++ "\""
  | .braceExpected table => "Expected '\x7b' after Table \"" ++ table ++ "\""
  | .invalidColumn text => "Invalid column definition: \"" ++ text ++ "\""
  | .unknownType spelling column => "Unknown type \"" ++ spelling ++ "\" for column \"" ++ column ++ "\""
  | .invalidRef text => "Invalid Ref syntax: \"" ++ text ++ "\""
  | .unexpected text => "Unexpected: \"" ++ text ++ "\""
  | .unknownTable => "Ref references unknown table"
  | .unknownColumn => "Ref references unknown column"

/-- A table block: the line of its header, whether its brace has been opened, and its columns so far. -/
structure Block where
  name : String
  line : Nat
  isOpen : Bool
  columns : List ColumnLine := []
  deriving DecidableEq, Repr

/-- The block with one more column. -/
def Block.add (b : Block) (c : ColumnLine) : Block := { b with columns := b.columns ++ [c] }

/-- What reading hands out. -/
inductive Entry where
  | table (b : Block)
  | ref (line : Nat) (r : Ref)
  | fault (line : Nat) (f : Fault)
  deriving DecidableEq, Repr

/-- The entries of a block that ends without its closing brace. -/
def unclosed : Option Block → List Entry
  | some b => [.fault b.line (.unclosed b.name), .table b]
  | none => []

/-- The fault of a line that is no column. -/
def columnFault (l : Line) : ColumnFault → Fault
  | .invalid => .invalidColumn (String.ofList l.text)
  | .unknownType spelling name => .unknownType spelling name

/-- The entries that a line gives, and the block that it leaves open, where `current` is open before it. -/
def step (current : Option Block) (l : Line) : List Entry × Option Block :=
  if l.isIdle then ([], current)
  else match header? l.text with
    | some h => (unclosed current, some ⟨h.name, l.number, h.opens, []⟩)
    | none =>
      match current with
      | some b =>
        if !b.isOpen then
          if l.text = ['\x7b'] then ([], some { b with isOpen := true })
          else ([.fault l.number (.braceExpected b.name)], some b)
        else if l.text = ['\x7d'] then ([.table b], none)
        else match ColumnLine.read l.text with
          | .ok c => ([], some (b.add c))
          | .error f => ([.fault l.number (columnFault l f)], some b)
      | none =>
        if (refText? l.text).isSome then
          match ref? l.text with
          | some r => ([.ref l.number r], none)
          | none => ([.fault l.number (.invalidRef (String.ofList l.text))], none)
        else ([.fault l.number (.unexpected (String.ofList l.text))], none)

/-- The entries of lines. -/
def entriesFrom (current : Option Block) : List Line → List Entry
  | [] => unclosed current
  | l :: ls =>
    let (entries, next) := step current l
    entries ++ entriesFrom next ls

/-- The entries of a document. -/
def entries (s : List Char) : List Entry := entriesFrom none (numberedLines s)

end Erd.Dbml
