import GridText.Layout.Basic

/-!
# The shape of a layout

* `Shape`: the four shapes; `Shape.isPositional` holds of the two that have no item cells.
* `Layout.shape`: the shape of a layout.
* `Layout.interior`: the item cells of a layout, row by row.
-/

namespace GridText

/-- The shapes of a layout. -/
inductive Shape where
  /-- A header row alone: a strip of columns. -/
  | columnOnly
  /-- One header size and rows of a size alone: a strip of rows. -/
  | rowOnly
  /-- One header size and rows of a size and one cell. -/
  | singleCell
  /-- Any other layout. -/
  | grid
  deriving DecidableEq, Repr

namespace Shape

/-- The name of a shape. -/
def name : Shape → String
  | columnOnly => "column_only"
  | rowOnly => "row_only"
  | singleCell => "single_cell"
  | grid => "grid"

/-- The shapes without item cells; their tracks are filled by position. -/
def isPositional : Shape → Bool
  | columnOnly | rowOnly => true
  | singleCell | grid => false

end Shape

namespace Layout

/-- The **shape of a layout.** -/
def shape (l : Layout) : Shape :=
  if l.body = [] then .columnOnly
  else if l.header.length = 1 then
    if l.body.all (·.length = 1) then .rowOnly else .singleCell
  else .grid

/-- The **interior of a layout**: its rows without the header row and without their sizes. A layout
that is filled by position has none. -/
def interior (l : Layout) : List (List Cell) :=
  if l.shape.isPositional then [] else l.body.map Row.cells

end Layout

end GridText
