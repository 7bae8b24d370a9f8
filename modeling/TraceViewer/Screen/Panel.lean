import TraceViewer.Screen.Area
import TraceViewer.Session.State

/-!
What the status lines and the lists of the panels say, and where panels stand.
-/

namespace TraceViewer.Session

/-! ## Status -/

/-- Counts, the mode, and what limits or holds up the rows. -/
def summaryLine (s : Session) : String :=
  let groups :=
    if s.groups.isEmpty then "" else " | " ++ Number.natText s.groups.length ++ " uploads"
  let filters :=
    if s.table.filters.isEmpty then ""
    else " | " ++ Number.natText s.table.filters.length ++ " column filters"
  "Showing " ++ Number.natText s.table.visibleCount ++ " of " ++ Number.natText s.table.rowCount ++
    " events | " ++ s.mode.label ++ groups ++ filters ++ if s.isLoading then " | loading" else ""

/-- The prompt that is open, else the filter of rows. -/
def promptLines (s : Session) : List String :=
  match s.input with
  | .filter (.column name) => ["Filter " ++ name ++ ": " ++ s.buffer ++ "_"]
  | .filter .rows => ["Filter rows: " ++ s.buffer ++ "_"]
  | _ => (s.table.rowFilter.map fun f => "Row filter: " ++ f.text).toList

def statusLines (s : Session) : List String :=
  s.summaryLine :: s.promptLines ++ (s.notice.map Notice.text).toList

/-! ## Items of lists -/

def columnItems (s : Session) : List String :=
  s.table.columns.map fun column =>
    let arrow :=
      match s.table.sorting with
      | some (sorted, direction) => if sorted = column then " " ++ direction.arrow else ""
      | none => ""
    let filter :=
      match s.table.filterOf? column with
      | some text => "  [" ++ text ++ "]"
      | none => ""
    column ++ arrow ++ filter

/-- What is known of loading a source. -/
def summaryText : Option SourceSummary → String
  | none => "  not loaded"
  | some { error := some fault, .. } => "  " ++ fault.message
  | some { rowCount, .. } => "  " ++ Number.natText rowCount ++ " events"

def sourceItems (s : Session) : List String :=
  (s.sources.zip s.summaries).zipIdx.map fun item =>
    let mark := if item.2 = s.selectedSource then "* " else "  "
    mark ++ item.1.1.label ++ summaryText item.1.2

/-- The parser that is tried with what is typed, and what came of it. -/
def testLines (s : Session) : List String :=
  let prompt :=
    match s.input with
    | .parserTest name => [name ++ "(\"" ++ s.buffer ++ "_\")"]
    | _ => []
  let result :=
    match s.testResult with
    | some (.ok text) => ["=> " ++ text]
    | some (.error text) => ["error: " ++ text]
    | none => []
  prompt ++ result

/-! ## Titles -/

def tableTitle (s : Session) : String :=
  let name := if s.traceName.isEmpty then "Events" else s.traceName
  name ++ " (" ++ Number.natText s.table.visibleCount ++ "/" ++ Number.natText s.table.rowCount ++
    ")" ++ if s.isLoading then " loading…" else ""

/-- Shows in place of rows where there is none. -/
def emptyText (s : Session) : String :=
  if s.isLoading then "Loading trace..."
  else if s.table.rowCount = 0 then "No events"
  else "No events match the current filters"

end TraceViewer.Session

namespace TraceViewer.Area

/-- The area of a panel for a list of `count` items. -/
def listPanel (screen : Area) (maxWidth count : Nat) : Area :=
  screen.centered (clamp 40 maxWidth (screen.width - 10))
    (max (min (count + 2) (screen.height - 6)) 5)

def columnPanel (screen : Area) (count : Nat) : Area := screen.listPanel 90 count

def sourcePanel (screen : Area) (count : Nat) : Area := screen.listPanel 100 count

def parserPanel (screen : Area) : Area :=
  screen.centered (clamp 40 100 (screen.width - 10)) (clamp 8 30 (screen.height - 4))

/-- The area of the help for `count` lines. -/
def helpPanel (screen : Area) (count : Nat) : Area :=
  screen.centered (clamp 50 90 (screen.width - 10)) (max (min (count + 2) (screen.height - 2)) 8)

end TraceViewer.Area
