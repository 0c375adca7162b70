import RvConsole.Text.Rune

/-! Tables in light box drawing.

A cell may hold several lines; a row is as high as its highest cell, and cells stand at its top. A
column is as wide as its widest line, and one blank stands on either side of it. -/
namespace RvConsole

/-- Where a cell's text stands in its column. -/
inductive Align where
  | left | center | right
  deriving DecidableEq, Repr

def blanks (n : Nat) : Text := List.replicate n (Text.byte ' ')

/-- Text filled up to a width in runes. Centred text has the odd blank on its left. -/
def Align.fill (align : Align) (width : Nat) (t : Text) : Text :=
  let missing := width - t.runeCount
  match align with
  | left => t ++ blanks missing
  | right => blanks missing ++ t
  | center => blanks (missing - missing / 2) ++ t ++ blanks (missing / 2)

/-- A table: its headers, how each column is aligned, and the rows. -/
structure Table where
  headers : List Text
  aligns : List Align := []
  rows : List (List Text) := []
  deriving DecidableEq, Repr

namespace Table

/-- A cell's lines; a tab is four blanks. -/
def cellLines (cell : Text) : List Text :=
  Text.split (Text.byte '\n') (cell.flatMap fun b => if b = Text.byte '\t' then blanks 4 else [b])

def columnCount (t : Table) : Nat := ((t.headers :: t.rows).map List.length).foldl max 0

/-- The cell of a row in a column; short rows end in empty cells. -/
def cell (row : List Text) (column : Nat) : Text := row.getD column []

/-- The width of the widest line in a column of rows. -/
def columnWidth (rows : List (List Text)) (column : Nat) : Nat :=
  (rows.flatMap fun row => (cellLines (cell row column)).map Text.runeCount).foldl max 0

def widths (t : Table) : List Nat :=
  (List.range t.columnCount).map (columnWidth (t.headers :: t.rows))

/-- How a column is aligned; columns without an alignment stand left. -/
def align (t : Table) (column : Nat) : Align := t.aligns.getD column .left

/-- How many lines a row takes. -/
def height (t : Table) (row : List Text) : Nat :=
  ((List.range t.columnCount).map fun column => (cellLines (cell row column)).length).foldl max 0

def rowLine (t : Table) (row : List Text) (n : Nat) : Text :=
  let cells := t.widths.mapIdx fun column width =>
    " " ++ (t.align column).fill width ((cellLines (cell row column)).getD n []) ++ " "
  "│" ++ Text.join "│" cells ++ "│"

def rowLines (t : Table) (row : List Text) : List Text :=
  (List.range (t.height row)).map (t.rowLine row)

/-- A line of the frame. -/
def rule (t : Table) (start between stop : Text) : Text :=
  let bars := t.widths.map fun width => (List.replicate (width + 2) ("─" : Text)).flatten
  start ++ Text.join between bars ++ stop

/-- The lines of the table. A table without columns is one empty line. -/
def lines (t : Table) : List Text :=
  if t.columnCount = 0 then [[]]
  else
    [t.rule "┌" "┬" "┐"] ++ t.rowLines t.headers ++ [t.rule "├" "┼" "┤"] ++
      t.rows.flatMap t.rowLines ++ [t.rule "└" "┴" "┘"]

end Table

end RvConsole
