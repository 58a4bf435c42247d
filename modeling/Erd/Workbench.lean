import Erd.Canvas.Edit
import Erd.Interchange

/-!
# The workbench

A workbench holds one diagram and one text. Its steps read the diagram from a text, write it into the text,
read the text back, and take the diagram to the canvas and home again. A step that fails changes nothing.

**Results.**
* `step_error`: after a step that fails the workbench is the one before it.
-/
namespace Erd

/-- A diagram and a text. -/
structure Workbench where
  diagram : Diagram := {}
  text : String := ""

namespace Workbench

/-- What can be done on a workbench. -/
inductive Step where
  /-- Reads a text. -/
  | read (f : InputFormat) (dialect : Dialect) (text : String)
  /-- Reads the text on the workbench. -/
  | reread (f : InputFormat) (dialect : Dialect)
  /-- Writes the diagram. -/
  | write (f : OutputFormat) (dialect : Dialect)
  /-- Puts the diagram on the canvas and takes it off again. -/
  | canvas

/-- What a step shows. -/
inductive Answer where
  | reading (r : Reading)
  | text (s : String)
  | diagram (d : Diagram)

/-- The answer to a step. -/
def answer (sheet : Outline.Sheet) (o : Sql.TableOptions) (w : Workbench) : Step → Except ImportError Answer
  | .read f dialect text => (f.read sheet dialect text).map .reading
  | .reread f dialect => (f.read sheet dialect w.text).map .reading
  | .write f dialect => .ok (.text (f.write o dialect w.diagram))
  | .canvas => .ok (.diagram (Canvas.Scene.ofDiagram w.diagram).diagram)

/-- The workbench with an answer kept. -/
def keep (w : Workbench) : Answer → Workbench
  | .reading r => { w with diagram := r.diagram }
  | .text s => { w with text := s }
  | .diagram d => { w with diagram := d }

/-- The workbench after a step. -/
def step (sheet : Outline.Sheet) (o : Sql.TableOptions) (w : Workbench) (s : Step) : Workbench :=
  match w.answer sheet o s with
  | .ok a => w.keep a
  | .error _ => w

/-- What a step reports. -/
def events (sheet : Outline.Sheet) (w : Workbench) : Step → List Event
  | .read f dialect text => f.events sheet dialect text
  | .reread f dialect => f.events sheet dialect w.text
  | .write f dialect => f.events dialect w.diagram
  | .canvas => (Canvas.Scene.ofDiagram w.diagram).events

theorem step_error {sheet : Outline.Sheet} {o : Sql.TableOptions} {w : Workbench} {s : Step}
    {e : ImportError} (h : w.answer sheet o s = .error e) : w.step sheet o s = w := by
  simp [step, h]

end Workbench

end Erd
