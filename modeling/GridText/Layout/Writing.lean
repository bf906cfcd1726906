import GridText.Layout.Basic
import GridText.Rules
import GridText.Text.Pad
import GridText.Text.Split

/-!
# Writing a layout

A layout is written as lines with aligned columns. Below the header stand the rows with their sizes,
so the header sizes move one column to the right when there are entries under them.

* `Cell.write`: the items of a cell with the separator between them; the marker if that is empty.
* `Row.table`: the texts of all cells, the header shifted.
* `Row.columnWidth`: the length of the longest text of a column.
* `Row.alignLine`: the texts of a line, padded to the widths of their columns, two spaces apart.
* `Row.writeAll`, `Layout.write`: the lines of a list of rows, of a layout.
-/

namespace GridText

/-- The entry of a cell. -/
def Cell.write (rules : Rules) (cell : Cell) : Text :=
  let text := Text.joinWith rules.separator cell
  if text = [] then rules.marker else text

namespace Row

/-- Some row below the header has more than a size, so that the sizes form a column of their own. -/
def hasSizeColumn (rows : List Row) : Bool := (rows.drop 1).any (·.length > 1)

/-- The **texts of all cells.** A column of sizes leaves a gap in front of the header. -/
def table (rules : Rules) (rows : List Row) : List (List Text) :=
  let texts := rows.map (·.map (Cell.write rules))
  if hasSizeColumn rows then texts.modifyHead ([] :: ·) else texts

/-- The length of the longest text of a column. -/
def columnWidth (table : List (List Text)) (column : Nat) : Nat :=
  (table.filterMap (·[column]?)).foldl (fun width text => max width text.length) 0

/-- The texts of one line, padded to the widths of their columns, without blanks at the end. -/
def alignLine (table : List (List Text)) (line : List Text) : Text :=
  Text.trimEnd (Text.joinWith [' ', ' ']
    (line.zipIdx.map fun (text, column) => Text.padRight (columnWidth table column) text))

/-- The **lines of a list of rows**, the first of which is the header. -/
def writeAll (rules : Rules) (rows : List Row) : List Text :=
  let texts := table rules rows
  texts.map (alignLine texts)

end Row

/-- The **lines of a layout.** -/
def Layout.write (rules : Rules) (l : Layout) : List Text := Row.writeAll rules l.rows

end GridText
