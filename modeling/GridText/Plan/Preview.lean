import GridText.Plan.Basic
import GridText.Plan.Chalk
import GridText.Text.Pad
import GridText.Text.Split

/-!
# The preview of a plan

A plan is drawn with box characters: a strip of tracks for a layout that is filled by position, and
otherwise the interior as a table, with the column sizes above it and the row sizes on its left.

* `Preview.Options`: the width of a cell, the text of an empty cell, whether items are coloured.
* `Preview.border`, `Preview.fence`, `Preview.frame`: the horizontal lines of a box, a line of cells
  between vertical ones, and lines with borders around and between them.
* `Preview.colour?`: the colour of a cell, which is one of a palette.
* `Plan.columnStrip`, `Plan.rowStrip`, `Plan.box`: the three drawings, line by line.
* `Plan.previewLines`, `Plan.preview`: the drawing of a plan with a chalk.
-/

namespace GridText

namespace Preview

/-- How a plan is drawn. -/
structure Options where
  /-- The number of characters of a cell; by default the longest size or entry and two more. -/
  cellWidth : Option Int := none
  /-- The text of an empty cell; by default the marker that the layout was read with. -/
  marker : Option Text := none
  /-- Whether every item has its colour. -/
  colour : Bool := true

/-- The horizontal line over cells of some widths, between two ends. -/
def border (left middle right : Char) (widths : List Nat) : Text :=
  left :: Text.joinWith [middle] (widths.map (List.replicate · '─')) ++ [right]

/-- The cells of a line between vertical lines. -/
def fence (cells : List Text) : Text := '│' :: Text.joinWith ['│'] cells ++ ['│']

/-- Lines between two borders, with a third one between each two of them. -/
def frame (top middle bottom : Text) (lines : List Text) : List Text :=
  top :: lines.intersperse middle ++ [bottom]

/-- The length of the longest text. -/
def longest (texts : List Text) : Nat := texts.foldl (fun width text => max width text.length) 0

/-- The entry of a cell: its items with commas between them, or the given text for no items. -/
def entry (marker : Text) (cell : Cell) : Text :=
  let text := Text.joinWith [','] cell
  if text = [] then marker else text

/-- The **colour of a cell**, by the rank of its first item among some items. -/
def colour? (palette : List (Text → Text)) (items : List Text) (cell : Cell) :
    Option (Text → Text) :=
  cell.head?.bind fun item => palette[items.idxOf item % palette.length]?

/-- A cell as it is drawn: its entry in the middle, in a colour if there is one. -/
def drawCell (width : Nat) (marker : Text) (colour : Option (Text → Text)) (cell : Cell) : Text :=
  let text := Text.center width (entry marker cell)
  colour.elim text (· text)

end Preview

namespace Plan

open Preview

/-- A **strip of columns**, each as wide as its size and a space on either side. -/
def columnStrip (p : Plan) : List Text :=
  let widths := p.columnSizes.map (·.length + 2)
  [border '┌' '┬' '┐' widths, fence (p.columnSizes.map fun size => ' ' :: size ++ [' ']),
    border '└' '┴' '┘' widths]

/-- A **strip of rows**, as wide as the longest size and a space on either side. -/
def rowStrip (p : Plan) : List Text :=
  let width := longest p.rowSizes + 2
  frame (border '┌' '─' '┐' [width]) (border '├' '─' '┤' [width]) (border '└' '─' '┘' [width])
    (p.rowSizes.map fun size => fence [Text.center width size])

/-- The text of an empty cell. -/
def markerShown (p : Plan) (o : Options) : Text := o.marker.getD p.rules.marker

/-- The number of characters of a cell. -/
def cellWidth (p : Plan) (o : Options) : Int :=
  o.cellWidth.getD
    (longest (p.columnSizes ++ p.layout.interior.flatten.map (entry (p.markerShown o))) + 2)

/-- The column sizes over the table, each in the middle of its column. -/
def headerLine (p : Plan) (label width : Nat) : Text :=
  Text.spaces (label + 2) ++
    Text.trimEnd (Text.joinWith [' '] (p.columnSizes.map (Text.center width)))

/-- The **interior as a table.** Every border is as far from the left as the row sizes need. -/
def box (p : Plan) (o : Options) (chalk : Chalk) : List Text :=
  let label := longest p.rowSizes
  let width := (p.cellWidth o).toNat
  let marker := p.markerShown o
  let items := p.orderedItems
  let edge (left middle right : Char) : Text :=
    Text.spaces (label + 1) ++ border left middle right (List.replicate p.columnSizes.length width)
  let draw (cell : Cell) : Text :=
    drawCell width marker (if o.colour then colour? chalk.palette items cell else none) cell
  let line (row : Row) : Text := Text.padLeft label row.size ++ ' ' :: fence (row.cells.map draw)
  p.headerLine label width ::
    frame (edge '┌' '┬' '┐') (edge '├' '┼' '┤') (edge '└' '┴' '┘') (p.layout.body.map line)

/-- The lines of the drawing. -/
def previewLines (p : Plan) (o : Options) (chalk : Chalk) : List Text :=
  match p.shape with
  | .columnOnly => p.columnStrip
  | .rowOnly => p.rowStrip
  | .singleCell | .grid => p.box o chalk

/-- The **drawing of a plan**, its lines one under the other. -/
def preview (p : Plan) (o : Options) (chalk : Chalk := .terminal) : Text :=
  Text.joinWith ['\n'] (p.previewLines o chalk)

end Plan

end GridText
