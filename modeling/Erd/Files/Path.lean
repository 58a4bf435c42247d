import Erd.Text.Blank

/-!
# Paths

A path is a list of names with slashes between them. Empty names and single points say nothing and are
left out; two points lead one level up.
-/
namespace Erd.Files

/-- A path, from the root if `slashes` is not zero. Two slashes in front are kept apart from one. -/
structure Path where
  slashes : Nat := 0
  names : List String := []
  deriving DecidableEq, Repr

namespace Path

/-- Reads a path. -/
def ofString (s : String) : Path where
  slashes :=
    match s.toList with
    | '/' :: '/' :: '/' :: _ => 1
    | '/' :: '/' :: _ => 2
    | '/' :: _ => 1
    | _ => 0
  names := ((Text.splitOn '/' s.toList).map String.ofList).filter fun n => n ≠ "" && n ≠ "."

/-- The text of a path; a single point if it is empty. -/
def toString (p : Path) : String :=
  if p.slashes = 0 ∧ p.names = [] then "."
  else String.ofList (List.replicate p.slashes '/') ++ "/".intercalate p.names

/-- The path without its last name. -/
def parent (p : Path) : Path := { p with names := p.names.dropLast }

/-- The names with each two points taken together with the name before them; two points with no name before
them stay. -/
def resolved (names : List String) : List String :=
  names.foldl (fun done n => if n = ".." && done.any (· ≠ "..") then done.dropLast else done ++ [n]) []

end Path

end Erd.Files
