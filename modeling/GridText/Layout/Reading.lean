import GridText.Layout.Basic
import GridText.Row.Reading

/-!
# Reading a layout

The first line holds the column sizes. Every further line holds a row, of which the spans must agree
with those of the row before, so that an item covers a rectangle.

* `Layout.readHeader`: the sizes of the first line, each alone in its cell.
* `Layout.bodyWidth`: how many values a row must have. Below a single column size the first row
  decides: rows of a size alone, or rows of a size and one cell.
* `Layout.clash?`: the first value with different spans on two rows.
* `Layout.readRow`, `Layout.readBody`: one row below the row before it, and all rows of the body.
* `Layout.read`: the layout of a list of lines, or the first fault.
* `Layout.acceptedRows`: the rows that were read in front of the first fault.
-/

namespace GridText.Layout

/-- The sizes of a header line, each alone in its cell. -/
def headerOfTokens : List Text → Except Defect Row
  | [] => .ok []
  | size :: sizes => do
    let _ ← Track.classify size
    let others ← headerOfTokens sizes
    return [size] :: others

/-- The **header row of a line.** -/
def readHeader (line : Text) : Except Defect Row := do
  let found ← Token.scan line
  headerOfTokens found

/-- The **number of values in a row** below so many columns. Below a single one, the first line of
the body must have one value or two, and then so must all. -/
def bodyWidth (rules : Rules) (columns : Nat) (body : List Text) : Except Fault Nat :=
  match body with
  | [] => .ok (columns + 1)
  | first :: _ =>
    if columns = 1 then do
      let row ← Row.readText rules 1 first
      if row.length > 2 then .error (.defect (.ambiguousSingleColumn 1 row.length))
      else .ok row.length
    else .ok (columns + 1)

/-- The first value of the current spans with another span before. -/
def clash? (previous current : ItemMap Span) : Option (Text × Span × Span) :=
  current.findSome? fun (item, span) =>
    (previous.find? item).bind fun before =>
      if before = span then none else some (item, before, span)

/-- One **row of the body**, below a row with the given spans. -/
def readRow (rules : Rules) (width row : Nat) (previous : ItemMap Span) (line : Text) :
    Except Fault Row := do
  let found ← Row.readText rules row line
  match clash? previous found.spans with
  | some (item, before, span) => .error (.defect (.nonRectangularSpan item row before span))
  | none =>
    if found.length ≠ width then .error (.defect (.rowSizeMismatch row found.length width))
    else .ok found

/-- The rows of the body, the first of which has the given number. -/
def readBody (rules : Rules) (width : Nat) :
    Nat → ItemMap Span → List Text → Except Fault (List Row)
  | _, _, [] => .ok []
  | row, previous, line :: lines => do
    let found ← readRow rules width row previous line
    let others ← readBody rules width (row + 1) found.spans lines
    return found :: others

/-- The **layout of a list of lines**, or the first fault. -/
def read (rules : Rules) : List Text → Except Fault Layout
  | [] => .error (.defect .emptyInput)
  | first :: body => do
    let header ← (readHeader first).mapError Fault.defect
    let width ← bodyWidth rules header.length body
    let rows ← readBody rules width 1 [] body
    return ⟨header, rows⟩

/-! ### What was read in front of a fault -/

/-- The rows of the body in front of the first one that is refused. -/
def acceptedBody (rules : Rules) (width : Nat) : Nat → ItemMap Span → List Text → List Row
  | _, _, [] => []
  | row, previous, line :: lines =>
    match readRow rules width row previous line with
    | .ok found => found :: acceptedBody rules width (row + 1) found.spans lines
    | .error _ => []

/-- The header and body rows in front of the first fault; no header is read if there is none, or if
the width of the body cannot be told. -/
def acceptedRows (rules : Rules) : List Text → Option Layout
  | [] => none
  | first :: body =>
    match readHeader first with
    | .error _ => none
    | .ok header =>
      match bodyWidth rules header.length body with
      | .error _ => none
      | .ok width => some ⟨header, acceptedBody rules width 1 [] body⟩

end GridText.Layout
