import Erd.Diagram.Basic

/-!
# The layout grid

Tables that were read from a text are laid out on a grid, row by row. Division rounds down, so that the
rule also holds for negative sizes and places; a grid without columns has no places.

**Results.**
* `place?_isSome_iff`: a grid has places exactly if its number of columns is not zero.
-/
namespace Erd

/-- The size of a grid: how many columns, and how far apart columns and rows are. -/
structure Grid where
  columns : Int := 3
  horizontal : Int := 300
  vertical : Int := 250
  deriving DecidableEq, Repr

/-- A place on the canvas in whole units. -/
structure GridPoint where
  x : Int
  y : Int
  deriving DecidableEq, Repr

/-- The position of a point. -/
def GridPoint.position (p : GridPoint) : Position := ⟨.int p.x, .int p.y⟩

/-- The grid has no columns, so nothing can be placed on it. -/
inductive GridError where
  | noColumns
  deriving DecidableEq, Repr

namespace Grid

/-- The point of the place with an index, counted from zero along the rows. -/
def point (g : Grid) (index : Int) : GridPoint where
  x := index.fmod g.columns * g.horizontal
  y := index.fdiv g.columns * g.vertical

/-- The point of a place, if the grid has columns. -/
def place? (g : Grid) (index : Int) : Option GridPoint :=
  if g.columns = 0 then none else some (g.point index)

theorem place?_isSome_iff (g : Grid) (index : Int) : (g.place? index).isSome ↔ g.columns ≠ 0 := by
  unfold place?
  split <;> simp_all

/-- The points of the first `count` places; no point if the count is not positive. Only a grid without columns
has none to give. -/
def layout (g : Grid) (count : Int) : Except GridError (List GridPoint) :=
  if g.columns = 0 ∧ 0 < count then .error .noColumns
  else .ok ((List.range count.toNat).map fun i : Nat => g.point i)

end Grid

end Erd
