import GridText.Row.Basic

/-!
# Layouts

* `Layout`: the header row, which sizes the columns, and the rows below it.
* `Layout.rows`, `Layout.ofRows?`: a layout as the list of its rows, and back; only the empty list
  is no layout.
-/

namespace GridText

/-- A **layout** is a header row and the rows below it. -/
structure Layout where
  header : Row
  body : List Row
  deriving DecidableEq, Repr

namespace Layout

/-- All rows, the header first. -/
def rows (l : Layout) : List Row := l.header :: l.body

/-- The layout of a list of rows, if there is a first one. -/
def ofRows? : List Row → Option Layout
  | [] => none
  | header :: body => some ⟨header, body⟩

end Layout

end GridText
