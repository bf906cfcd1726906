import GridText.Layout.Shape

/-!
# Areas and empty cells

* `Position`: a cell of the interior; `Area`: a box of cells, its four sides included.
* `Layout.places`: every cell of the interior with its position, row by row.
* `Layout.mentions`: every item of the interior with its position, row by row.
* `Layout.areas`: the least box around the mentions of each item, in the order of first mention.
* `Layout.emptyCells`: the positions of the cells without items, row by row.
-/

namespace GridText

/-- The position of a cell in the interior of a layout. -/
structure Position where
  row : Nat
  column : Nat
  deriving DecidableEq, Repr

/-- A **box of cells** of the interior, given by its four outermost rows and columns. -/
structure Area where
  top : Nat
  left : Nat
  bottom : Nat
  right : Nat
  deriving DecidableEq, Repr

namespace Area

/-- The number of rows of a box. -/
def rows (a : Area) : Nat := a.bottom + 1 - a.top

/-- The number of columns of a box. -/
def columns (a : Area) : Nat := a.right + 1 - a.left

/-- The least box around a box and one more cell. -/
def widen (known : Option Area) (p : Position) : Area :=
  match known with
  | some a => ⟨min a.top p.row, min a.left p.column, max a.bottom p.row, max a.right p.column⟩
  | none => ⟨p.row, p.column, p.row, p.column⟩

end Area

namespace Layout

/-- Every cell of the interior with its position, row by row. -/
def places (l : Layout) : List (Cell × Position) :=
  l.interior.zipIdx.flatMap fun (cells, row) =>
    cells.zipIdx.map fun (cell, column) => (cell, ⟨row, column⟩)

/-- Every item of the interior with its position, row by row. -/
def mentions (l : Layout) : List (Text × Position) :=
  l.places.flatMap fun (cell, position) => cell.map (·, position)

/-- The **areas of the items**, in the order of their first mention. -/
def areas (l : Layout) : ItemMap Area := ItemMap.collect Area.widen l.mentions

/-- The **empty cells**, row by row. -/
def emptyCells (l : Layout) : List Position :=
  l.places.filterMap fun (cell, position) => if cell = [] then some position else none

end Layout

end GridText
