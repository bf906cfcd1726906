import GridText.Console.Drawing
import GridText.Text.Codes
import GridText.Text.Lines
import GridText.Viewer.Basic

/-!
# The viewer on the console

* `Viewer.Block.lines`: the lines of a block as the console lays it out, which has no colours.
* `Viewer.Report`, `Viewer.report`: the lines that are printed and noted for a text, and the exit
  status.
-/

namespace GridText.Viewer

/-- The lines of a block on the console. -/
def Block.lines : Block → List Text
  | .panel title s => Console.panel title (Text.splitOn ['\n'] s)
  | .drawing title s => Console.panel title (Text.lines (Text.plain s))
  | .line s => [s]
  | .table s => Console.table s

/-- What the viewer does: the lines that it prints and notes, and its exit status. -/
structure Report where
  status : Nat
  output : List Text
  journal : List Text
  deriving DecidableEq, Repr

/-- The **report on a text.** -/
def report (request : Request) (text : Text) : Report :=
  let found := outcome request text .terminal
  ⟨found.status, found.blocks.flatMap Block.lines, found.journal⟩

end GridText.Viewer
