import GridText.Console.Wrapping
import GridText.Plan.Summary
import GridText.Text.Split

/-!
# Console: panels and tables

* `Console.panel`: lines of text in a box with rounded corners as wide as the console, with a title
  in the upper edge.
* `Console.table`: a summary as a table with a heavy head, as wide as its texts.
-/

namespace GridText.Console

/-- The number of columns of the console. -/
def width : Nat := 80

/-- So many columns of a horizontal line. -/
def rule (c : Char) (n : Nat) : Text := List.replicate n c

/-- A title in the middle of a horizontal line, the spare column of an odd gap behind it. -/
def titled (c : Char) (columns : Nat) (title : Text) : Text :=
  let shown := title.take columns
  let gap := columns - shown.length
  rule c (gap / 2) ++ shown ++ rule c (gap - gap / 2)

/-- Lines in a box with a title. -/
def panel (title : Text) (lines : List Text) : List Text :=
  let inner := width - 4
  [['╭', '─'] ++ titled '─' inner (' ' :: title ++ [' ']) ++ ['─', '╮']] ++
    (lines.flatMap (wrap inner)).map (fun line => ['│', ' '] ++ line ++ [' ', '│']) ++
    ['╰' :: rule '─' (width - 2) ++ ['╯']]

/-- The length of the longest text in each column, for as many columns as the headers. -/
def columnWidths (s : Summary) : List Nat :=
  s.headers.mapIdx fun column header =>
    (s.rows.filterMap (·[column]?)).foldl (fun n text => max n text.length) header.length

/-- A line of texts, each filled up to its width and a space on either side. -/
def tableLine (bar : Char) (widths : List Nat) (texts : List Text) : Text :=
  bar :: (widths.zip texts).flatMap fun (n, text) =>
    ' ' :: Text.padRight n text ++ [' ', bar]

/-- A horizontal line over columns of some widths. -/
def tableRule (left line middle right : Char) (widths : List Nat) : Text :=
  left :: Text.joinWith [middle] (widths.map fun n => rule line (n + 2)) ++ [right]

/-- A **summary as a table**, its title in the middle above it. -/
def table (s : Summary) : List Text :=
  let widths := columnWidths s
  let top := tableRule '┏' '━' '┳' '┓' widths
  [Text.centerLeft top.length s.title, top, tableLine '┃' widths s.headers,
    tableRule '┡' '━' '╇' '┩' widths] ++
    s.rows.map (tableLine '│' widths) ++ [tableRule '└' '─' '┴' '┘' widths]

end GridText.Console
