import TraceViewer.Table.View
import TraceViewer.Text.Symbol

/-!
Rows of a table as lines of cells: each cell is padded or cut to the width of its column, so that
rows and header line up.
-/

namespace TraceViewer

/-- The widest that a column shows. -/
def maxColumnWidth : Nat := 40

def columnSeparator : String := " │ "

/-- Shows in place of rows where there is no column. -/
def noColumnsText : String := "[no columns]"

def spaces (n : Nat) : String := .ofList (List.replicate n ' ')

/-! ## Cells -/

/-- A cell cut where it gets too wide, with an ellipsis in place of the last character that fits.
The characters so far come last first. -/
def cutCell (width : Nat) : List Char → Nat → List Char → List Char × Nat
  | fitted, used, [] => (fitted, used)
  | fitted, used, c :: cs =>
    if used + Text.charWidth c ≤ width then
      cutCell width (c :: fitted) (used + Text.charWidth c) cs
    else
      match fitted with
      | last :: before => ('…' :: before, used - Text.charWidth last + 1)
      | [] => (['…'], used + 1)

/-- A cell cut or padded to a width. -/
def padCell (cell : String) (width : Nat) : String :=
  let (fitted, used) := cutCell width [] 0 cell.toList
  .ofList fitted.reverse ++ spaces (width - used)

/-- Cells in columns of the given widths. -/
def joinCells (cells : List String) (widths : List Nat) : String :=
  Text.join columnSeparator ((cells.zip widths).map fun p => padCell p.1 p.2)

/-! ## Columns -/

/-- The width of a column: that of its widest cell, with room for two marks after its name. -/
def columnWidth (rows : List Event) (column : String) : Nat :=
  min maxColumnWidth
    (rows.foldl (fun w row => max w (Text.width (row.cell column))) (Text.width column + 2))

def columnWidths (columns : List String) (rows : List Event) : List Nat :=
  columns.map (columnWidth rows)

/-- The name of a column with its marks: the direction in which it is sorted, and a star when it has
a filter. -/
def columnLabel (t : Table) (column : String) : String :=
  let arrow :=
    match t.sorting with
    | some (sorted, direction) => if sorted = column then direction.arrow else ""
    | none => ""
  column ++ arrow ++ if (t.filterOf? column).isSome then "*" else ""

def headerLine (t : Table) (widths : List Nat) : String :=
  if t.columns.isEmpty then noColumnsText else joinCells (t.columns.map (columnLabel t)) widths

/-- A text with spaces for line breaks and tabs. -/
def flatten (s : String) : String :=
  s.map fun c => if c == '\n' || c == '\r' || c == '\t' then ' ' else c

def rowLine (columns : List String) (widths : List Nat) (row : Event) : String :=
  if columns.isEmpty then noColumnsText
  else joinCells (columns.map fun column => flatten (row.cell column)) widths

/-! ## The part of a line that shows -/

/-- The characters after the first `skipped` cells, up to `width` cells, with the cells they
take. -/
def sliceFrom (width : Nat) : Nat → Nat → List Char → List Char × Nat
  | _, used, [] => ([], used)
  | skipped, used, c :: cs =>
    let w := (Text.charWidth? c).getD 1
    if 0 < skipped then sliceFrom width (skipped - w) used cs
    else if width < used + w then ([], used)
    else
      let (rest, used) := sliceFrom width 0 (used + w) cs
      (c :: rest, used)

/-- The part of a line from a cell on, padded to a width. -/
def sliceLine (s : String) (offset width : Nat) : String :=
  let (shown, used) := sliceFrom width offset 0 s.toList
  .ofList shown ++ spaces (width - used)

end TraceViewer
