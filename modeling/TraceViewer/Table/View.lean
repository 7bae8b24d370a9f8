import TraceViewer.Files.Tree
import TraceViewer.Filter
import TraceViewer.Table.Csv
import TraceViewer.Table.Order

/-!
A table over the rows of a trace. The rows never change: sorting changes the order in which they
are listed, and filtering changes which of them are kept. Filters are evaluated against the parsers
of a registry, which every operation that filters takes and gives back.
-/

namespace TraceViewer

structure Table where
  rows : Array Event := #[]
  columns : List String := []
  /-- The positions of the rows in the order in which they are listed. -/
  order : List Nat := []
  /-- For each row whether the filters keep it. -/
  kept : Array Bool := #[]
  sorting : Option (String × Direction) := none
  /-- Columns with their filters, in the order in which they were first set. -/
  filters : List (String × String) := []
  rowFilter : Option RowFilter := none
  cache : FilterCache := {}

namespace Table

/-- Shows new rows, without sorting and filters. -/
def load (t : Table) (columns : List String) (rows : List Event) : Table :=
  { rows := rows.toArray
    columns
    order := List.range rows.length
    kept := Array.replicate rows.length true
    -- filters that were read once stay read
    cache := t.cache }

/-! ## What a table shows -/

def isKept (t : Table) (i : Nat) : Bool := t.kept[i]?.getD false

/-- The positions of the rows that show, in the order in which they do. -/
def visible (t : Table) : List Nat := t.order.filter t.isKept

def visibleRows (t : Table) : List Event := t.visible.filterMap fun i => t.rows[i]?

def visibleRow? (t : Table) (position : Nat) : Option Event := t.visibleRows[position]?

/-- How many rows are kept. -/
def visibleCount (t : Table) : Nat := t.kept.toList.countP id

/-- How many rows there are. -/
def rowCount (t : Table) : Nat := t.rows.size

def filterOf? (t : Table) (column : String) : Option String := t.filters.lookup column

/-! ## Filters -/

/-- Whether the filters of some columns all keep a row; the first that does not is the last to be
evaluated. -/
def keepCells (row : Event) : List (String × String) → FilterCache → Registry →
    Bool × FilterCache × Registry
  | [], c, r => (true, c, r)
  | (column, text) :: rest, c, r =>
    match c.keepCell text (row.cell column) r with
    | (true, c, r) => keepCells row rest c r
    | (false, c, r) => (false, c, r)

/-- Whether all filters keep a row. -/
def keepRow (filters : List (String × String)) (rowFilter : Option RowFilter) (row : Event)
    (c : FilterCache) (r : Registry) : Bool × FilterCache × Registry :=
  match keepCells row filters c r, rowFilter with
  -- the filter of rows runs only for what the columns keep
  | (true, c, r), some f =>
    let (kept, r) := f.keep row r
    (kept, c, r)
  | outcome, _ => outcome

/-- The decisions about rows, one after another. -/
def keepRows (filters : List (String × String)) (rowFilter : Option RowFilter) :
    List Event → List Bool → FilterCache → Registry → List Bool × FilterCache × Registry
  | [], acc, c, r => (acc.reverse, c, r)
  | row :: rest, acc, c, r =>
    let (kept, c, r) := keepRow filters rowFilter row c r
    keepRows filters rowFilter rest (kept :: acc) c r

/-- Evaluates all filters anew. -/
def refilter (t : Table) (r : Registry) : Table × Registry :=
  let (kept, cache, r) := keepRows t.filters t.rowFilter t.rows.toList [] t.cache r
  ({ t with kept := kept.toArray, cache }, r)

/-- Sets the text of a column in a list of filters, in its place or at the end. -/
def setText (column text : String) : List (String × String) → List (String × String)
  | [] => [(column, text)]
  | (c, old) :: rest =>
    if c == column then (column, text) :: rest else (c, old) :: setText column text rest

/-- Removes the filter of a column. -/
def clearFilter (t : Table) (column : String) (r : Registry) : Table × Registry :=
  let filters := t.filters.filter fun f => f.1 ≠ column
  -- nothing runs when there was no filter to remove
  if filters.length = t.filters.length then (t, r) else { t with filters }.refilter r

/-- Sets the filter of a column; a blank text removes it. -/
def setFilter (t : Table) (column text : String) (r : Registry) : Table × Registry :=
  let text := Text.trim text
  if text.isEmpty then t.clearFilter column r
  else { t with filters := setText column text t.filters }.refilter r

/-- Sets the filter of rows; a blank text removes it, and one that cannot be read changes
nothing. -/
def setRowFilter (t : Table) (text : String) (r : Registry) :
    Except FilterFault Unit × Table × Registry :=
  match RowFilter.compile text r with
  | (.error fault, r) => (.error fault, t, r)
  | (.ok rowFilter, r) => (.ok (), { t with rowFilter }.refilter r)

/-! ## Sorting and columns -/

/-- The direction in which sorting a column again goes. -/
def nextDirection (t : Table) (column : String) : Direction :=
  if t.sorting = some (column, .ascending) then .descending else .ascending

/-- Sorts by a column, in the other direction when it was sorted by it ascending. -/
def sort (t : Table) (column : String) : Table :=
  let direction := t.nextDirection column
  -- the keys are made once per row and not once per comparison
  let keys := t.rows.map fun row => SortKey.ofText (row.cell column)
  let less (a b : Nat) : Bool :=
    match keys[a]?, keys[b]? with
    | some x, some y => direction.precedes (x.compare y)
    | _, _ => false
  { t with order := mergeSort less t.order, sorting := some (column, direction) }

/-- The position `delta` places away, within the first `count` positions. -/
def shifted (position : Nat) (delta : Int) (count : Nat) : Nat :=
  min (position + delta).toNat (count - 1)

/-- Moves a column by some places as far as that goes, and gives its new position. -/
def moveColumn (t : Table) (position : Nat) (delta : Int) : Nat × Table :=
  match t.columns[position]? with
  | none => (position, t)
  | some column =>
    let target := shifted position delta t.columns.length
    (target, { t with columns := (t.columns.eraseIdx position).insertIdx target column })

/-! ## Exporting -/

/-- The visible rows as comma-separated values, after a record of the columns. -/
def csv (t : Table) : String :=
  Csv.text (t.columns :: t.visibleRows.map fun row => t.columns.map row.cell)

/-- Writes the visible rows to a file in a folder, and gives its path. -/
def exportCsv (t : Table) (folder hint : String) (files : Files) (now : Int) :
    Except TransferFault (String × Files) :=
  let path := Path.join folder (Csv.fileStem hint ++ ".csv")
  match files.writeText path t.csv now with
  | .ok files => .ok (path, files)
  | .error fault => .error (.unwritable path fault)

end Table

end TraceViewer
