import Erd.Outline
import Erd.Sql.TypeName
import Erd.Text.Name

/-!
# Definitions in a table body

A definition is a column, a key or other constraint of the table, an index, or nothing that is understood.
What it is, is decided by how it starts, and the forms are tried in a fixed order: primary key, foreign
key, unique, then check and index, then column. Any number of `CONSTRAINT name` may stand in front.
-/
namespace Erd.Sql

open Text

/-- A foreign key: a column, and the table and column that it refers to. -/
structure Reference where
  column : String
  table : String
  referenced : String
  deriving DecidableEq, Repr

/-- A column as it is defined: with its type as it is spelled, and what it refers to. -/
structure ColumnDefinition where
  name : String
  spelling : String
  type : ColumnType
  isPrimaryKey : Bool
  isUnique : Bool
  isNotNull : Bool
  countsUp : Bool
  reference : Option Reference
  deriving DecidableEq, Repr

/-- A definition in a table body. -/
inductive Definition where
  | column (c : ColumnDefinition)
  | primaryKey (columns : List String)
  | foreignKey (r : Reference)
  | unique (columns : List String)
  | check
  | index
  /-- An option of the table that strayed into its body. -/
  | tableOption
  | unreadable
  deriving DecidableEq, Repr

/-! ## Parts -/

/-- A name without its quotes. -/
def nameText (s : List Char) : String := String.ofList (unquote s)

/-- The names in a list with commas. -/
def nameList (s : List Char) : List String := (splitOn ',' s).map nameText

/-- The table that a qualified name means: its last part. -/
def tableText (s : List Char) : String := nameText ((splitOn '.' s).getLast?.getD [])

/-- A character of an unquoted name in a constraint: neither blank nor an opening parenthesis. -/
def isNamePart (c : Char) : Bool := !isBlank c && c ≠ '('

/-- The table and the column after the word `REFERENCES`, and the rest. -/
def target? (s : List Char) : Option ((String × String) × List Char) :=
  match skipBlanks? s with
  | none => none
  | some s =>
    let table := s.takeWhile isNamePart
    if table.isEmpty then none
    else (parenthesized? (s.dropWhile isNamePart)).map fun (column, rest) =>
      ((tableText table, nameText column), rest)

/-! ## Constraints of the table -/

/-- The columns of a primary key. -/
def primaryKey? (s : List Char) : Option (List String) :=
  ((phrase ["primary", "key"] s).bind parenthesized?).map fun (columns, _) => nameList columns

/-- A foreign key. -/
def foreignKey? (s : List Char) : Option Reference :=
  match (phrase ["foreign", "key"] s).bind parenthesized? with
  | none => none
  | some (column, rest) =>
    ((keyword "references" (trimStart rest)).bind target?).map fun ((table, referenced), _) =>
      ⟨nameText column, table, referenced⟩

/-- The text after one of the two words for an index. -/
def indexWord? (s : List Char) : Option (List Char) := (keyword "key" s).or (keyword "index" s)

/-- The name that stands after blanks, and the rest; no name if there is none. -/
def indexName (s : List Char) : Option (List Char) × List Char :=
  match skipBlanks? s with
  | none => (none, s)
  | some t =>
    let name := t.takeWhile isNamePart
    if name.isEmpty then (none, s) else (some name, t.dropWhile isNamePart)

/-- The columns that are unique together. -/
def unique? (s : List Char) : Option (List String) :=
  match keyword "unique" s with
  | none => none
  | some rest =>
    let rest := match (skipBlanks? rest).bind indexWord? with
      | some named => (indexName named).2
      | none => rest
    (parenthesized? rest).map fun (columns, _) => nameList columns

/-- A check of the table. -/
def isCheck (s : List Char) : Bool :=
  match (keyword "check" s).map trimStart with
  | some ('(' :: _) => true
  | _ => false

/-! ## Indexes -/

/-- The text after a list of index columns that has just been opened. A column may have one parenthesis of
its own, and `inner` tells whether it is open. -/
def afterIndexColumns (inner : Bool) : List Char → Option (List Char)
  | [] => none
  | c :: s =>
    if c = '(' then (if inner then none else afterIndexColumns true s)
    else if c = ')' then (if inner then afterIndexColumns false s else some s)
    else afterIndexColumns inner s

/-- The end of an index: nothing, or the method it uses. -/
def endsIndex (s : List Char) : Bool :=
  match trimStart s with
  | [] => true
  | t =>
    match (keyword "using" t).bind skipBlanks? with
    | some method => !(leadingWord method).isEmpty && isBlankText (afterWord method)
    | none => false

/-- The name of an index, if it has one, where the words that announce it have been read. -/
def indexRest? (s : List Char) : Option (Option (List Char)) :=
  let (name, rest) := indexName s
  match trimStart rest with
  | '(' :: columns =>
    match afterIndexColumns false columns with
    | some rest => if endsIndex rest then some name else none
    | none => none
  | _ => none

/-- The name of an index, if it has one. -/
def index? (s : List Char) : Option (Option (List Char)) :=
  match (keyword "fulltext" s).or (keyword "spatial" s) with
  | some rest =>
    (((skipBlanks? rest).bind indexWord?).bind indexRest?).or (indexRest? rest)
  | none => (indexWord? s).bind indexRest?

/-- An index. A type word in the place of its name makes it a column instead: `key INT(11)`. -/
def isIndex (s : List Char) : Bool :=
  match index? s with
  | some (some name) => !isTypeWord name
  | some none => true
  | none => false

/-! ## Columns -/

/-- The name of a column, without its quotes, and the rest. -/
def columnName? (s : List Char) : Option (List Char × List Char) :=
  match s with
  | [] => none
  | q :: inside =>
    if isQuote q then
      match inside.takeWhile (· ≠ q), inside.dropWhile (· ≠ q) with
      | c :: name, _ :: rest => some (c :: name, rest)
      | _, _ => none
    else
      match s.takeWhile fun c => !isBlank c && !isQuote c with
      | [] => none
      | name => some (name, s.dropWhile fun c => !isBlank c && !isQuote c)

/-- The spelling of a type: a word of ASCII at its start, and a parenthesis if one follows; and the rest. -/
def spelling? (s : List Char) : Option (List Char × List Char) :=
  match s with
  | [] => none
  | c :: _ =>
    if c.isAlpha || c = '_' then
      let word := leadingWord s
      let rest := afterWord s
      match trimStart rest with
      | '(' :: inside =>
        match inside.dropWhile (· ≠ ')') with
        | ')' :: after =>
          some (word ++ rest.takeWhile isBlank ++ '(' :: inside.takeWhile (· ≠ ')') ++ [')'], after)
        | _ => some (word, rest)
      | _ => some (word, rest)
    else none

/-- The words that name table options. -/
def tableOptions : List String := ["ENGINE", "DEFAULT"]

/-- The first reference among the settings of a column. -/
def inlineTarget? (settings : List Char) : Option (String × String) :=
  (search (fun t => (keyword "references" t).bind target?) settings).map Prod.fst

/-- A column with a name, the spelling of its type and its settings. -/
def columnDefinition (name spelling settings : List Char) : ColumnDefinition :=
  let column := String.ofList name
  let isPrimaryKey := hasPhrase ["primary", "key"] settings
  { name := column
    spelling := String.ofList spelling
    type := columnType spelling
    isPrimaryKey := isPrimaryKey
    isUnique := isPrimaryKey || hasPhrase ["unique"] settings
    isNotNull := isPrimaryKey || hasPhrase ["not", "null"] settings
    countsUp := hasPhrase ["auto_increment"] settings || hasPhrase ["autoincrement"] settings
    reference := (inlineTarget? settings).map fun (table, referenced) => ⟨column, table, referenced⟩ }

/-- A column, a stray table option, or nothing that is understood. -/
def columnOf (s : List Char) : Definition :=
  match columnName? s with
  | none => .unreadable
  | some (name, rest) =>
    match (skipBlanks? rest).bind spelling? with
    | none => .unreadable
    | some (spelling, settings) =>
      if tableOptions.contains (String.ofList (upper name)) then .tableOption
      else .column (columnDefinition name spelling settings)

/-! ## The whole -/

/-- The text after a constraint's name, where one is announced. -/
def dropConstraintName? (s : List Char) : Option (List Char) :=
  match (keyword "constraint" s).bind skipBlanks? with
  | some (_ :: rest) => skipBlanks? (rest.dropWhile fun c => !isBlank c)
  | _ => none

theorem length_dropConstraintName? {s rest : List Char} (h : dropConstraintName? s = some rest) :
    rest.length < s.length := by
  unfold dropConstraintName? at h
  split at h
  · next c t hk =>
    obtain ⟨u, hu, hs⟩ := Option.bind_eq_some_iff.1 hk
    have h1 := length_dropKeyword hu
    have h2 := length_skipBlanks? hs
    have h3 := length_skipBlanks? h
    have h4 : (t.dropWhile fun c => !isBlank c).length ≤ t.length :=
      (List.dropWhile_sublist _).length_le
    simp only [List.length_cons] at h2
    omega
  · contradiction

/-- The text without the names of constraints in front of it. -/
def dropConstraintNames (s : List Char) : List Char :=
  match h : dropConstraintName? s with
  | some rest =>
    have := length_dropConstraintName? h
    dropConstraintNames rest
  | none => s
termination_by s.length

/-- What a definition without the names of constraints in front is. -/
def classify (s : List Char) : Definition :=
  match primaryKey? s with
  | some columns => .primaryKey columns
  | none =>
    match foreignKey? s with
    | some r => .foreignKey r
    | none =>
      match unique? s with
      | some columns => .unique columns
      | none => if isCheck s then .check else if isIndex s then .index else columnOf s

/-- What a definition is. -/
def Definition.read (s : List Char) : Definition := classify (dropConstraintNames s)

end Erd.Sql
