import GridText.Rules
import GridText.Text.Split
import GridText.Row.Token
import GridText.Track

/-!
# Reading a row

A row is a track size and then entries. An entry lists the items of one cell: distinct texts with
the separator of the rules between them, each without the blanks around it. An item may cover
several cells of a row as one unbroken run.

* `Cell.parts`: the trimmed parts of an entry; `Cell.ofParts`: a lone marker stands for no items.
* `Cell.firstRepeat?`: the first item that is already in front of itself.
* `Cell.read`: the cell of an entry, which must not repeat an item.
* `Row.resumes`: an item comes back after a cell without it.
* `Row.read`: the row of a list of tokens; `Row.readText`: the row of a line of text.
-/

namespace GridText

namespace Cell

/-- The parts of an entry between the separators, each without the blanks around it. -/
def parts (rules : Rules) (entry : Text) : List Text :=
  (Text.splitOn rules.separator entry).map Text.trim

/-- The cell of a list of parts: the marker on its own stands for an empty cell. -/
def ofParts (rules : Rules) (parts : List Text) : Cell :=
  if parts = [rules.marker] then [] else parts

/-- The first item that equals one before it. -/
def firstRepeat? : List Text → List Text → Option Text
  | _, [] => none
  | before, item :: rest =>
    if item ∈ before then some item else firstRepeat? (before ++ [item]) rest

/-- The **cell of an entry.** Row and column are where a repeated item is reported. -/
def read (rules : Rules) (row column : Int) (entry : Text) : Except Fault Cell :=
  if rules.separator = [] then .error .emptySeparator
  else
    let cell := ofParts rules (parts rules entry)
    match firstRepeat? [] cell with
    | some item => .error (.defect (.duplicateItem item row column))
    | none => .ok cell

end Cell

namespace Row

/-- After these cells the item would come back: one of them has it, but not the last. -/
def resumes (before : List Cell) (item : Text) : Bool :=
  item ∈ before.flatten && item ∉ before.getLast?.getD []

/-- The item cells of a list of entries, behind the cells that have been read. -/
def readCells (rules : Rules) (row : Int) (before : List Cell) :
    List Text → Except Fault (List Cell)
  | [] => .ok before
  | entry :: entries => do
    let column := before.length + 1
    let cell ← Cell.read rules row column entry
    match cell.find? (resumes before) with
    | some item => .error (.defect (.nonContiguousItem item row column))
    | none => readCells rules row (before ++ [cell]) entries

/-- The **row of a list of tokens**: a size, then entries. -/
def read (rules : Rules) (row : Int) : List Text → Except Fault Row
  | [] => .error (.defect (.emptyRow row))
  | size :: entries => do
    let _ ← (Track.classify size).mapError Fault.defect
    let cells ← readCells rules row [] entries
    return [size] :: cells

/-- The row of a line of text. -/
def readText (rules : Rules) (row : Int) (line : Text) : Except Fault Row := do
  let found ← (Token.scan line).mapError Fault.defect
  read rules row found

end Row

end GridText
