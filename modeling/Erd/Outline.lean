import Erd.Grid

/-!
# Outlines

An outline is what a reader makes of a text: tables and columns in order, and links that name them by
their place in that order. Drawing it on a sheet gives every part an id, no two of which are the same, and
every table a position on the grid.

Names are looked up without regard to case. Of several tables with one name the last is meant, of several
columns the first.

**Results.**
* `Part.text_injective`: the text of its place is an id that no other part has.
-/
namespace Erd

namespace Outline

/-- A column without an id. -/
structure Column where
  name : String
  type : ColumnType
  constraints : Constraints := {}
  deriving DecidableEq, Repr

/-- A table without an id and a position. -/
structure Table where
  name : String
  columns : List Outline.Column := []
  deriving DecidableEq, Repr

/-- The place of a column: the index of its table and its index there. -/
structure Place where
  table : Nat
  column : Nat
  deriving DecidableEq, Repr

/-- A relationship between places. -/
structure Link where
  cardinality : Cardinality
  source : Place
  target : Place
  deriving DecidableEq, Repr

end Outline

/-- Tables and the links between their columns. -/
structure Outline where
  tables : List Outline.Table := []
  links : List Outline.Link := []
  deriving DecidableEq, Repr

namespace Outline

/-! ## Names -/

/-- The index of the last table with a name, and the table. -/
def tableNamed? (tables : List Table) (name : String) : Option (Nat × Table) :=
  (tables.zipIdx.reverse.find? fun p => nameKey p.1.name == nameKey name).map fun p => (p.2, p.1)

/-- The index of the first column with a name. -/
def Table.columnNamed? (t : Table) (name : String) : Option Nat :=
  t.columns.findIdx? fun c => nameKey c.name == nameKey name

/-- The columns with the first one of a name changed. -/
def changeNamed (name : String) (f : Column → Column) : List Column → List Column
  | [] => []
  | c :: cs => if nameKey c.name = nameKey name then f c :: cs else c :: changeNamed name f cs

/-! ## Ids -/

/-- A part of an outline that gets an id. -/
inductive Part where
  | table (i : Nat)
  | column (i j : Nat)
  | link (i : Nat)
  deriving DecidableEq, Repr

/-- Ids for the parts of outlines. No two parts share one. -/
structure Ids where
  of : Part → String
  injective {p q : Part} (h : of p = of q) : p = q

/-- The place of a part as a text. -/
def Part.text : Part → String
  | .table i => "t" ++ toString i
  | .column i j => "t" ++ toString i ++ ".c" ++ toString j
  | .link i => "r" ++ toString i

/-- Two numbers with texts after them that do not start with a digit are cut apart in one way only. -/
theorem toDigits_append_inj {m n : Nat} {s t : List Char} (hs : ∀ c ∈ s.head?, c.isDigit = false)
    (ht : ∀ c ∈ t.head?, c.isDigit = false)
    (h : Nat.toDigits 10 m ++ s = Nat.toDigits 10 n ++ t) : m = n ∧ s = t := by
  have cut (k : Nat) (u : List Char) (hu : ∀ c ∈ u.head?, c.isDigit = false) :
      (Nat.toDigits 10 k ++ u).takeWhile Char.isDigit = Nat.toDigits 10 k := by
    have hd : ∀ c ∈ Nat.toDigits 10 k, c.isDigit = true := fun c hc =>
      Nat.isDigit_of_mem_toDigits (by decide) (by decide) hc
    rw [List.takeWhile_append_of_pos hd]
    cases u with
    | nil => simp
    | cons c u => simp [hu c rfl]
  have hd : Nat.toDigits 10 m = Nat.toDigits 10 n := by rw [← cut m s hs, ← cut n t ht, h]
  refine ⟨?_, List.append_cancel_left (hd ▸ h)⟩
  rw [← Nat.ofDigitChars_ten_toDigits (n := m), hd, Nat.ofDigitChars_ten_toDigits]

theorem toList_toString (n : Nat) : (toString n).toList = Nat.toDigits 10 n := Nat.toList_repr

theorem Part.text_injective {p q : Part} (h : p.text = q.text) : p = q := by
  have hl := congrArg String.toList h
  have dot : ∀ (r : List Char), ∀ c ∈ (".c".toList ++ r).head?, c.isDigit = false := by
    intro r c hc
    cases hc
    rfl
  cases p <;> cases q <;> simp only [Part.text, String.toList_append, toList_toString] at hl
  case table.table i i' =>
    obtain ⟨rfl, -⟩ := toDigits_append_inj (s := []) (t := []) (by simp) (by simp) (by simpa using hl)
    rfl
  case table.column i i' j' =>
    have := (toDigits_append_inj (s := []) (by simp) (dot (Nat.toDigits 10 j')) (by simpa using hl)).2
    cases this
  case column.table i j i' =>
    have := (toDigits_append_inj (t := []) (dot (Nat.toDigits 10 j)) (by simp) (by simpa using hl)).2
    cases this
  case column.column i j i' j' =>
    obtain ⟨rfl, h2⟩ := toDigits_append_inj (dot (Nat.toDigits 10 j)) (dot (Nat.toDigits 10 j'))
      (by simpa using hl)
    obtain ⟨rfl, -⟩ := toDigits_append_inj (s := []) (t := []) (by simp) (by simp) (by simpa using h2)
    rfl
  case link.link i i' =>
    obtain ⟨rfl, -⟩ := toDigits_append_inj (s := []) (t := []) (by simp) (by simp) (by simpa using hl)
    rfl
  all_goals simp at hl

/-- Ids made of the place of each part, after what all of them start with. -/
def Ids.placed (scope : String) : Ids where
  of p := scope ++ p.text
  injective {p q} h := by
    have hl := congrArg String.toList h
    simp only [String.toList_append, List.append_cancel_left_eq, String.toList_inj] at hl
    exact Part.text_injective hl

/-- A text stands for the ids of places that start with it. -/
instance : Coe String Ids := ⟨Ids.placed⟩

/-! ## Drawing -/

/-- Where outlines are drawn: the grid, and the ids of what is drawn. -/
structure Sheet where
  grid : Grid := {}
  ids : Ids := Ids.placed ""

/-- The id of the table with an index. -/
def Sheet.tableId (s : Sheet) (i : Nat) : String := s.ids.of (.table i)

/-- The id of a column of the table with an index. -/
def Sheet.columnId (s : Sheet) (i j : Nat) : String := s.ids.of (.column i j)

/-- The id of the link with an index. -/
def Sheet.linkId (s : Sheet) (i : Nat) : String := s.ids.of (.link i)

/-- The ids of a place. -/
def Sheet.endpoint (s : Sheet) (p : Place) : Endpoint := ⟨s.tableId p.table, s.columnId p.table p.column⟩

/-- The column with an index. -/
def Sheet.column (s : Sheet) (i j : Nat) (c : Column) : Erd.Column :=
  { id := s.columnId i j, name := c.name, type := c.type, constraints := c.constraints }

/-- The table with an index. -/
def Sheet.table (s : Sheet) (i : Nat) (t : Table) : Erd.Table where
  id := s.tableId i
  name := t.name
  position := (s.grid.point i).position
  columns := t.columns.mapIdx (s.column i)

/-- The relationship of the link with an index. -/
def Sheet.relationship (s : Sheet) (i : Nat) (l : Link) : Relationship where
  id := s.linkId i
  cardinality := l.cardinality
  source := s.endpoint l.source
  target := s.endpoint l.target

end Outline

/-- The diagram of an outline on a sheet. -/
def Outline.draw (o : Outline) (s : Outline.Sheet) : Diagram where
  tables := o.tables.mapIdx s.table
  relationships := o.links.mapIdx s.relationship

/-- The diagram of an outline, unless there are tables and no grid to place them on. -/
def Outline.place (o : Outline) (s : Outline.Sheet) : Except GridError Diagram :=
  if s.grid.columns = 0 ∧ o.tables ≠ [] then .error .noColumns else .ok (o.draw s)

end Erd
