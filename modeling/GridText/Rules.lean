import GridText.Text.Blank

/-!
# Rules of a layout text

* `Rules`: how an empty cell is marked and how the items of one cell are separated.
-/

namespace GridText

/-- How the cells of a layout text are written. -/
structure Rules where
  /-- The text of a cell without items. -/
  marker : Text := ['.', '.']
  /-- The text between two items of a cell. -/
  separator : Text := [',']
  deriving DecidableEq, Repr

end GridText
