import KeyedRelations.Text.Blank
import KeyedRelations.Text.Width

/-!
# Grids

Tables of text for a terminal: a header and rows, each cell between two blanks and
padded to the widest cell of its column.  A cell with several lines makes a row of
several lines.  The header stands above a line of `=`, and rows are kept apart by
lines of `-`.
-/

namespace KeyedRelations.Text

/-- A table whose cells hold text. -/
structure Grid where
  header : List String
  rows : List (List String)

namespace Grid

/-- The lines of a cell. -/
def cellLines (cell : String) : List (List Char) := splitLines cell.toList

/-- The columns that a cell takes on a terminal. -/
def cellWidth (cell : String) : Nat := ((cellLines cell).map width).foldl max 0

/-- The width of every column: that of its widest cell, and at least one. -/
def widths (g : Grid) : List Nat :=
  g.rows.foldl (fun ws row => ws.zipWith max (row.map cellWidth))
    (g.header.map fun cell => max 1 (cellWidth cell))

/-- A line of a cell between blanks, padded to a width. -/
def pad (w : Nat) (line : List Char) : List Char :=
  ' ' :: line ++ List.replicate (w - width line) ' ' ++ [' ']

/-- Cells side by side. -/
def sideBySide (cells : List (List Char)) : List Char :=
  '|' :: ['|'].intercalate cells ++ ['|']

/-- The lines of a row, as many as its tallest cell has. -/
def rowLines (ws : List Nat) (row : List String) : List (List Char) :=
  let cells := row.map cellLines
  let height := (cells.map List.length).foldl max 1
  (List.range height).map fun i =>
    sideBySide (ws.zipWith (fun w lines => pad w ((lines[i]?).getD [])) cells)

/-- A line of dashes, with given ends and crossings. -/
def rule (edge crossing : Char) (ws : List Nat) : List Char :=
  edge :: [crossing].intercalate (ws.map fun w => List.replicate (w + 2) '-') ++ [edge]

/-- The line below the header. -/
def headerRule (ws : List Nat) : List Char :=
  '+' :: ['='].intercalate (ws.map fun w => List.replicate (w + 2) '=') ++ ['+']

/-- The lines of all rows with rules between them. -/
def bodyLines (ws : List Nat) (rows : List (List String)) : List (List Char) :=
  [rule '|' '+' ws].intercalate (rows.map (rowLines ws))

/-- The lines of a grid. -/
def lines (g : Grid) : List (List Char) :=
  let ws := g.widths
  rule '+' '+' ws :: rowLines ws g.header ++ headerRule ws :: bodyLines ws g.rows
    ++ [rule '+' '+' ws]

/-- The text of a grid. -/
def draw (g : Grid) : String := .ofList (['\n'].intercalate g.lines)

end Grid

end KeyedRelations.Text
