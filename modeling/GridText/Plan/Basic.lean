import GridText.Layout.Area
import GridText.Layout.Reading
import GridText.Text.Order

/-!
# Plans

A plan is a layout that has been read, with the rules it was read by. All else that drawing or
filling a layout needs follows from these two.

* `Plan.ofRows`: the plan of a list of lines.
* `Plan.shape`, `Plan.columnSizes`, `Plan.rowSizes`, `Plan.areas`, `Plan.emptyCells`.
* `Plan.trackCount`: how many children a layout takes by position.
* `Plan.orderedItems`: the items in the order of their code points.
-/

namespace GridText

/-- A **plan**: a layout and the rules by which it was read. -/
structure Plan where
  layout : Layout
  rules : Rules
  deriving DecidableEq, Repr

namespace Plan

/-- The **plan of a list of lines**, or the first fault. -/
def ofRows (rules : Rules) (rows : List Text) : Except Fault Plan := do
  let layout ← Layout.read rules rows
  return ⟨layout, rules⟩

/-- The shape of the layout. -/
def shape (p : Plan) : Shape := p.layout.shape

/-- The layout takes its children by position. -/
def isPositional (p : Plan) : Bool := p.shape.isPositional

/-- The sizes of the columns. A strip of rows has none, for its first line sizes a row. -/
def columnSizes (p : Plan) : List Text :=
  if p.shape = .rowOnly then [] else p.layout.header.map (·.headD [])

/-- The sizes of the rows; in a strip of rows the first line counts as one. -/
def rowSizes (p : Plan) : List Text :=
  if p.shape = .rowOnly then p.layout.rows.map Row.size else p.layout.body.map Row.size

/-- The areas of the items. -/
def areas (p : Plan) : ItemMap Area := p.layout.areas

/-- The empty cells. -/
def emptyCells (p : Plan) : List Position := p.layout.emptyCells

/-- The number of children that are taken by position. -/
def trackCount (p : Plan) : Option Nat :=
  match p.shape with
  | .columnOnly => some p.columnSizes.length
  | .rowOnly => some p.rowSizes.length
  | .singleCell | .grid => none

/-- The **items in the order of their code points.** -/
def orderedItems (p : Plan) : List Text := p.areas.items.mergeSort Text.le

end Plan

end GridText
