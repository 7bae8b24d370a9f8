import TraceViewer.Parser.Store
import TraceViewer.Table.View
import TraceViewer.Trace.Source

/-!
The state of a session: the table with the sources that it is loaded from, the parsers and where
they are saved, and what the keyboard has selected, typed and opened.
-/

namespace TraceViewer

/-- The two panes of the screen. -/
inductive Pane where
  | list
  | detail
  deriving Repr, DecidableEq

/-- What a filter that is being typed is for. -/
inductive FilterTarget where
  | column (name : String)
  | rows
  deriving Repr, DecidableEq

/-- What keys mean at the moment. -/
inductive InputMode where
  | normal
  | filter (target : FilterTarget)
  | columns
  | parsers
  | parserTest (name : String)
  | sources
  deriving Repr, DecidableEq

/-- A message in the status lines, which stays until the next one. -/
inductive Notice where
  | info (text : String)
  | error (text : String)
  deriving Repr, DecidableEq

def Notice.text : Notice → String
  | .info text => text
  | .error text => text

/-- The selected item of a list, and the first item that shows. -/
structure ListPosition where
  selected : Option Nat := none
  offset : Nat := 0
  deriving Repr, DecidableEq

namespace ListPosition

/-- Selects an item, or nothing, which also goes back to the first item. -/
def select (p : ListPosition) (selected : Option Nat) : ListPosition :=
  match selected with
  | some i => { p with selected := some i }
  | none => {}

/-- Moves the selection within a list of `count` items. -/
def move (p : ListPosition) (count : Nat) (delta : Int) : ListPosition :=
  if count = 0 then p.select none
  else p.select (some (Table.shifted (min (p.selected.getD 0) (count - 1)) delta count))

/-- Selects the first item of a list of `count` items. -/
def selectFirst (p : ListPosition) (count : Nat) : ListPosition :=
  p.select (if count = 0 then none else some 0)

/-- Selects the last item of a list of `count` items. -/
def selectLast (p : ListPosition) (count : Nat) : ListPosition :=
  p.select (if count = 0 then none else some (count - 1))

end ListPosition

/-- The sizes of what was drawn last. -/
structure Viewport where
  listHeight : Nat := 0
  listWidth : Nat := 0
  detailHeight : Nat := 0
  detailLines : Nat := 0
  rowWidth : Nat := 0

/-- A request to load the selected source, or all sources. Requests are numbered from one. -/
structure LoadRequest where
  generation : Nat
  mode : ViewMode
  selected : Nat
  deriving Repr, DecidableEq

/-- What came of a request. -/
structure LoadResponse where
  request : LoadRequest
  outcome : Except TransferFault LoadedTrace

structure Session where
  table : Table := {}
  registry : Registry := {}
  store : ParserStore := {}
  files : Files := {}
  /-- The present time in seconds from the start of 1970. -/
  clock : Int := 0
  sources : List TraceSource := []
  summaries : List (Option SourceSummary) := []
  mode : ViewMode := .byUpload
  selectedSource : Nat := 0
  traceName : String := ""
  groups : List GroupSummary := []
  /-- The number of the newest request. -/
  generation : Nat := 0
  isLoading : Bool := false
  exportFolder : String := "."
  rowList : ListPosition := {}
  columnList : ListPosition := {}
  parserList : ListPosition := {}
  sourceList : ListPosition := {}
  focus : Pane := .list
  zoom : Option Pane := none
  showsHelp : Bool := false
  input : InputMode := .normal
  buffer : String := ""
  notice : Option Notice := none
  testResult : Option (Except String String) := none
  viewport : Viewport := {}
  /-- How many lines of the event are scrolled past; a number of sixteen bits. -/
  scroll : UInt16 := 0
  /-- How many cells the rows are shifted to the left. -/
  shift : Nat := 0
  needsRedraw : Bool := true

namespace Session

def inform (s : Session) (text : String) : Session := { s with notice := some (.info text) }

def complain (s : Session) (text : String) : Session := { s with notice := some (.error text) }

def visibleCount (s : Session) : Nat := s.table.visibleCount

/-- The selected event. -/
def currentRow? (s : Session) : Option Event := s.rowList.selected.bind s.table.visibleRow?

def selectedColumn? (s : Session) : Option String :=
  s.columnList.selected.bind fun i => s.table.columns[i]?

def selectedParser? (s : Session) : Option String :=
  s.parserList.selected.bind fun i => s.registry.names[i]?

end Session

end TraceViewer
