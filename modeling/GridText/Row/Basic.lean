import GridText.ItemMap

/-!
# Rows: cells, spans

A row that has been read is a list of cells: first the cell that holds its size alone, then its
item cells. A position counts the cells of the whole row, so that the size stands at position 0.

* `Cell`, `Row`: lists of items, lists of cells.
* `Span`: the left-most and the right-most position of an item.
* `Row.mentions`: every value of a row with its position, from left to right.
* `Row.spans`: the span of every value of a row, in the order of their first mention.
-/

namespace GridText

/-- The items of one cell; a size stands alone in its cell. -/
abbrev Cell := List Text

/-- The cells of one row, the size first. -/
abbrev Row := List Cell

/-- The left-most and the right-most position of an item. -/
structure Span where
  left : Int
  right : Int
  deriving DecidableEq, Repr

namespace Span

/-- The span widened on the right to a further position. -/
def widen (known : Option Span) (position : Nat) : Span :=
  match known with
  | some span => ⟨span.left, position⟩
  | none => ⟨position, position⟩

end Span

namespace Row

/-- Every value of the row with its position, from left to right. -/
def mentions (row : Row) : List (Text × Nat) :=
  row.zipIdx.flatMap fun (cell, position) => cell.map (·, position)

/-- The **spans of a row**: of each value, its size included, the first and the last position. -/
def spans (row : Row) : ItemMap Span := ItemMap.collect Span.widen row.mentions

/-- The size of a row that has been read. -/
def size : Row → Text
  | (text :: _) :: _ => text
  | _ => []

/-- The item cells of a row. -/
def cells (row : Row) : List Cell := row.drop 1

end Row

end GridText
