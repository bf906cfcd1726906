import GridText.Row.Basic

/-!
# Defects of a layout text

A layout text is refused for one of eleven causes. Each cause carries what its message speaks of.

* `Defect`: the causes. Rows and columns are counted from 0, the header row being row 0 and the
  size of a row its column 0.
* `Defect.kind`, `Defect.Kind.category`: the cause without its details, and the part of the format
  it belongs to.
* `Defect.message`: the message of a defect.
* `Defect.details`, `Defect.ofDetails?`: a defect as a record of optional details, and back.
* `Fault`: what ends the reading of a layout, a defect of the text or rules that cannot be applied.
-/

namespace GridText

/-- A **cause for which a layout text is refused.** -/
inductive Defect where
  /-- There is no row at all. -/
  | emptyInput
  /-- A row has no token. -/
  | emptyRow (row : Int)
  /-- A row holds nothing but blanks. -/
  | malformedRow (text : Text)
  /-- Below a single header size, a row has more than a size and one cell. -/
  | ambiguousSingleColumn (row actual : Int)
  /-- A row has another number of values than the layout asks for. -/
  | rowSizeMismatch (row actual expected : Int)
  /-- A text is no track size. -/
  | invalidTrackSize (text : Text)
  /-- The arguments of a `minmax` are no simple sizes. -/
  | invalidMinmax (text : Text)
  /-- The argument of a `fit-content` is no length or percentage. -/
  | invalidFitContent (text : Text)
  /-- An item stands twice in one cell. -/
  | duplicateItem (item : Text) (row column : Int)
  /-- An item comes back after a cell of the row without it. -/
  | nonContiguousItem (item : Text) (row column : Int)
  /-- A value has different spans on a row and on the row before. -/
  | nonRectangularSpan (item : Text) (row : Int) (previous current : Span)
  deriving DecidableEq, Repr

namespace Defect

/-- The parts of the format that a defect can lie in. -/
inductive Category where
  | structural | grammar | topology
  deriving DecidableEq, Repr

/-- The name of a category. -/
def Category.name : Category → String
  | structural => "structural"
  | grammar => "grammar"
  | topology => "topology"

/-- The causes without their details. -/
inductive Kind where
  | emptyInput | emptyRow | malformedRow | ambiguousSingleColumn | rowSizeMismatch
  | invalidTrackSize | invalidMinmax | invalidFitContent
  | duplicateItem | nonContiguousItem | nonRectangularSpan
  deriving DecidableEq, Repr

namespace Kind

/-- All kinds, by category. -/
def all : List Kind :=
  [emptyInput, emptyRow, malformedRow, ambiguousSingleColumn, rowSizeMismatch, invalidTrackSize,
    invalidMinmax, invalidFitContent, duplicateItem, nonContiguousItem, nonRectangularSpan]

/-- The name of a kind. -/
def name : Kind → String
  | emptyInput => "empty_input"
  | emptyRow => "empty_row"
  | malformedRow => "malformed_row"
  | ambiguousSingleColumn => "ambiguous_single_column"
  | rowSizeMismatch => "row_size_mismatch"
  | invalidTrackSize => "invalid_track_size"
  | invalidMinmax => "invalid_minmax"
  | invalidFitContent => "invalid_fit_content"
  | duplicateItem => "duplicate_item_in_cell"
  | nonContiguousItem => "non_contiguous_item"
  | nonRectangularSpan => "non_rectangular_span"

/-- The kind of a name. -/
def ofName? (name : String) : Option Kind := all.find? (·.name == name)

/-- The part of the format that a kind belongs to. -/
def category : Kind → Category
  | invalidTrackSize | invalidMinmax | invalidFitContent => .grammar
  | duplicateItem | nonContiguousItem | nonRectangularSpan => .topology
  | _ => .structural

end Kind

/-- The kind of a defect. -/
def kind : Defect → Kind
  | emptyInput => .emptyInput
  | emptyRow .. => .emptyRow
  | malformedRow .. => .malformedRow
  | ambiguousSingleColumn .. => .ambiguousSingleColumn
  | rowSizeMismatch .. => .rowSizeMismatch
  | invalidTrackSize .. => .invalidTrackSize
  | invalidMinmax .. => .invalidMinmax
  | invalidFitContent .. => .invalidFitContent
  | duplicateItem .. => .duplicateItem
  | nonContiguousItem .. => .nonContiguousItem
  | nonRectangularSpan .. => .nonRectangularSpan

/-- The **message of a defect.** -/
def message : Defect → String
  | emptyInput => "Cannot validate empty rows"
  | emptyRow row => s!"Row number {row} is empty"
  | malformedRow text => s!"'{String.ofList text}' cannot be split correctly"
  | ambiguousSingleColumn row actual =>
    s!"Row {row} has {actual} entries but only a single column header is defined. " ++
      "It must define only a single entry for a row-only specification or two entries for a " ++
      "single cell grid."
  | rowSizeMismatch row actual expected => s!"Row {row} has {actual} values instead of {expected}"
  | invalidTrackSize text => s!"{String.ofList text} is an invalid grid specification"
  | invalidMinmax text => s!"{String.ofList text} is an invalid minmax specification"
  | invalidFitContent text => s!"{String.ofList text} is an invalid fit-content specification"
  | duplicateItem item row column =>
    s!"{String.ofList item} in row {row} and column {column} is repeated"
  | nonContiguousItem item row column =>
    s!"{String.ofList item} in row {row} and column {column} is not contiguous"
  | nonRectangularSpan item row previous current =>
    s!"{String.ofList item} has bounds of {previous.left}, {previous.right} on row {row - 1} " ++
      s!"and bounds of {current.left}, {current.right} on row {row}. " ++
      "Bounds must match to form a rectangle."

/-! ### Defects as records -/

/-- The details that a defect may carry, each under its name. -/
structure Details where
  row : Option Int := none
  column : Option Int := none
  item : Option Text := none
  text : Option Text := none
  expected : Option Int := none
  actual : Option Int := none
  spans : Option (Span × Span) := none
  deriving DecidableEq, Repr

/-- The details that a defect carries. -/
def details : Defect → Details
  | emptyInput => {}
  | emptyRow row => { row }
  | malformedRow text | invalidTrackSize text | invalidMinmax text | invalidFitContent text =>
    { text }
  | ambiguousSingleColumn row actual => { row, actual }
  | rowSizeMismatch row actual expected => { row, actual, expected }
  | duplicateItem item row column | nonContiguousItem item row column => { item, row, column }
  | nonRectangularSpan item row previous current => { item, row, spans := (previous, current) }

/-- The defect of a kind with the details that it needs, if they are there. -/
def ofDetails? (kind : Kind) (d : Details) : Option Defect :=
  match kind with
  | .emptyInput => some emptyInput
  | .emptyRow => d.row.map emptyRow
  | .malformedRow => d.text.map malformedRow
  | .ambiguousSingleColumn => do return ambiguousSingleColumn (← d.row) (← d.actual)
  | .rowSizeMismatch => do return rowSizeMismatch (← d.row) (← d.actual) (← d.expected)
  | .invalidTrackSize => d.text.map invalidTrackSize
  | .invalidMinmax => d.text.map invalidMinmax
  | .invalidFitContent => d.text.map invalidFitContent
  | .duplicateItem => do return duplicateItem (← d.item) (← d.row) (← d.column)
  | .nonContiguousItem => do return nonContiguousItem (← d.item) (← d.row) (← d.column)
  | .nonRectangularSpan => do
    let (previous, current) ← d.spans
    return nonRectangularSpan (← d.item) (← d.row) previous current

end Defect

/-- What ends the reading of a layout text. -/
inductive Fault where
  /-- The text has a defect. -/
  | defect (d : Defect)
  /-- An entry cannot be cut into items, because the rules have an empty separator. -/
  | emptySeparator
  deriving DecidableEq, Repr

namespace Fault

/-- The message of a fault. -/
def message : Fault → String
  | defect d => d.message
  | emptySeparator => "empty separator"

end Fault

end GridText
