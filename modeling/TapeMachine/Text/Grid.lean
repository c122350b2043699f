/-!
# Grids

A grid is a table drawn with lines between its columns, under its titles and below its last row. A
cell may have several lines, so a grid can stand in a cell of another. A column is as wide as the
longest line in it, its title included, and a row is as tall as its tallest cell.
-/

set_option autoImplicit false

namespace TapeMachine.Text

/-- The side of a column on which the text of its cells stands. -/
inductive Side where
  | left
  | right
  deriving DecidableEq

/-- A column: its title and the side of its text. -/
structure Column where
  title : String
  side : Side

/-- A grid; each cell of a row is a list of lines. -/
structure Grid where
  columns : List Column
  rows : List (List (List String))

namespace Grid

/-- Fills a line up with spaces. -/
def pad (side : Side) (width : Nat) (line : String) : String :=
  let spaces := String.ofList (List.replicate (width - line.length) ' ')
  match side with
  | .left => line ++ spaces
  | .right => spaces ++ line

/-- The width of a column with a title, at an index of the rows. -/
def width (rows : List (List (List String))) (index : Nat) (title : String) : Nat :=
  let lines := title :: rows.flatMap fun row ↦ row.getD index []
  (lines.map String.length).foldl max 0

/-- One line of text across columns, each with the side of its text and its width. -/
def textLine (columns : List (Side × Nat)) (line : List String) : String :=
  let cells := columns.mapIdx fun index (side, width) ↦
    " " ++ pad side width (line.getD index "") ++ " "
  " " ++ String.intercalate "│" cells ++ " "

/-- A line between rows, with a sign where it meets the line between two columns. -/
def ruleLine (columns : List (Side × Nat)) (crossing : String) : String :=
  let dashes := columns.map fun (_, width) ↦ String.ofList (List.replicate (width + 2) '─')
  " " ++ String.intercalate crossing dashes ++ " "

/-- The lines of a row. -/
def rowLines (columns : List (Side × Nat)) (row : List (List String)) : List String :=
  let height := (row.map List.length).foldl max 0
  (List.range height).map fun index ↦ textLine columns (row.map fun cell ↦ cell.getD index "")

/-- The lines of a grid. -/
def lines (grid : Grid) : List String :=
  let columns := grid.columns.mapIdx fun index column ↦
    (column.side, width grid.rows index column.title)
  textLine columns (grid.columns.map Column.title) :: ruleLine columns "┼"
    :: grid.rows.flatMap (rowLines columns) ++ [ruleLine columns "┴"]

/-- The text of a grid, each line ended by a line feed. -/
def text (grid : Grid) : String :=
  String.join (grid.lines.map fun line ↦ line ++ "\n")

end Grid

end TapeMachine.Text
