import GridText.Plan.Basic

/-!
# The summary of a plan

* `Summary`: a titled table of texts.
* `Plan.summary`: the sides of the area of every item, and the positions of the empty cells.
-/

namespace GridText

/-- A **titled table of texts.** -/
structure Summary where
  title : Text
  headers : List Text
  rows : List (List Text)
  deriving DecidableEq, Repr

namespace Plan

/-- A line of the summary: a name and the four sides of a box. -/
def summaryRow (name : Text) (a : Area) : List Text :=
  name :: [a.top, a.left, a.bottom, a.right].map (Nat.toDigits 10)

/-- The **summary of a plan**: the items in the order of their code points, then the empty cells. -/
def summary (p : Plan) : Summary where
  title := p.shape.name.toList ++ " layout".toList
  headers := ["Item", "Top", "Left", "Bottom", "Right"].map String.toList
  rows :=
    let areas := p.areas
    p.orderedItems.filterMap (fun item => (areas.find? item).map (summaryRow item)) ++
      p.emptyCells.map fun cell =>
        summaryRow "(empty)".toList ⟨cell.row, cell.column, cell.row, cell.column⟩

end Plan

end GridText
