import Erd.Journal
import Erd.Outline

/-!
# What reading a text gives

Reading never fails because of the text: what cannot be used becomes a diagnostic with its line, and the
rest still makes a diagram. It can only fail because there is no grid to place the tables on.
-/
namespace Erd

/-- A complaint about a line of a text. Lines count from one; zero stands for the text as a whole. -/
structure Diagnostic where
  line : Nat
  message : String
  deriving DecidableEq, Repr

/-- A diagram read from a text, with the complaints about it. -/
structure Reading where
  diagram : Diagram := {}
  diagnostics : List Diagnostic := []

/-- There were no complaints. -/
def Reading.isClean (r : Reading) : Bool := r.diagnostics.isEmpty

/-- What a reader has made of a text before anything is placed: the outline, the complaints, and the
events before and after the tables are placed. -/
structure Draft where
  outline : Outline := {}
  diagnostics : List Diagnostic := []
  eventsBefore : List Event := []
  eventsAfter : List Event := []

/-- The reading of a draft on a sheet. -/
def Draft.reading (d : Draft) (s : Outline.Sheet) : Except GridError Reading :=
  match d.outline.place s with
  | .ok diagram => .ok ⟨diagram, d.diagnostics⟩
  | .error e => .error e

/-- The events of placing a draft on a sheet: nothing more happens when that fails. -/
def Draft.events (d : Draft) (s : Outline.Sheet) : List Event :=
  match d.outline.place s with
  | .ok _ => d.eventsBefore ++ d.eventsAfter
  | .error _ => d.eventsBefore

end Erd
