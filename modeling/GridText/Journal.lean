import GridText.Plan.Preview
import GridText.Text.Quoted

/-!
# The journal of a plan

What happens on the way from the lines of a layout to its drawing can be noted, one line for each
step, with a level in front.

* `Journal.quotedRow`: the cells of a row as a listing.
* `Journal.reading`: the rows that were read, up to the first fault.
* `Journal.plan`: the figures of a plan.
* `Journal.drawing`: the drawing of a table.
-/

namespace GridText.Journal

/-- A note of the finest level. -/
def detail (s : String) : Text := ("DEBUG: " ++ s).toList

/-- A note of the level above. -/
def note (s : String) : Text := ("INFO: " ++ s).toList

/-- The cells of a row, each as a list of quoted items. -/
def quotedRow (row : Row) : Text :=
  Text.Quoted.brackets (row.map fun cell => Text.Quoted.brackets (cell.map Text.Quoted.encode))

/-- The **reading of some lines**: the number of columns if there is a header alone, or else every
row in front of the first fault. -/
def reading (rules : Rules) (rows : List Text) : List Text :=
  match Layout.acceptedRows rules rows with
  | none => []
  | some l =>
    if rows.length = 1 then
      let columns := l.header.length
      [detail s!"validate_rows: column-only layout with {columns} columns"]
    else
      l.body.mapIdx fun i row =>
        let number := i + 1
        let shown := String.ofList (quotedRow row)
        detail s!"validate_rows: row {number} -> {shown}"

/-- The **figures of a plan.** -/
def plan (p : Plan) : List Text :=
  let columns := p.columnSizes.length
  let rows := p.rowSizes.length
  let items := p.areas.length
  let empty := p.emptyCells.length
  [note (s!"compile_rows: shape={p.shape.name}, columns={columns}, rows={rows}, " ++
    s!"items={items}, empty={empty}")]

/-- The **drawing of a plan**; a strip is drawn without a note. -/
def drawing (p : Plan) (o : Preview.Options) : List Text :=
  if p.isPositional then []
  else
    let width := p.cellWidth o
    [detail s!"render_layout: {p.shape.name} layout, cell_width={width}"]

end GridText.Journal
