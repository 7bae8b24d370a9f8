import TraceViewer.Screen.Canvas
import TraceViewer.Screen.Detail
import TraceViewer.Screen.Help
import TraceViewer.Screen.Panel
import TraceViewer.Session.Rows

/-!
The whole screen of a session. Drawing has two parts: the session takes note of the sizes that
things have on the screen and moves its lists so that what is selected shows, and then the screen
is drawn from that.
-/

namespace TraceViewer

/-- Where the parts of the screen stand. -/
structure Frame where
  screen : Area
  list : Area
  detail : Area
  status : Area

namespace Frame

def nowhere : Area := ⟨0, 0, 0, 0⟩

/-- The status lines stand at the bottom, and the two panes share what is above them. -/
def ofSession (s : Session) (width height : Nat) : Frame :=
  let screen := Area.sized 0 0 width height
  let (above, status) := screen.splitBottom (max (s.statusLines.length + 2) 3)
  let (list, detail) :=
    match s.zoom with
    | some .list => (above, nowhere)
    | some .detail => (nowhere, above)
    | none => above.splitColumns
  { screen, list, detail, status }

/-- The rows of the list below its header. -/
def body (f : Frame) : Area :=
  let inner := f.list.inner
  ⟨inner.x, inner.y + 1, inner.width, inner.height - 1⟩

/-- How many cells of a row show. -/
def rowWidth (f : Frame) : Nat := f.list.width - 4

/-- The list of the parser panel and the part below it, where a parser is tried. -/
def parserParts (f : Frame) : Area × Area := f.screen.parserPanel.inner.splitBottom 4

end Frame

/-- The place of a list in which `shown` of `count` items show, moved by as little as it takes for
the selected item to show. A list without items or without room stays where it is. -/
def ListPosition.settle (p : ListPosition) (count shown : Nat) : ListPosition :=
  if count = 0 || shown = 0 then p
  else
    let offset := min p.offset (count - 1)
    match p.selected with
    | none => { p with offset }
    | some selected =>
      let selected := min selected (count - 1)
      if selected < offset then { p with offset := selected }
      else if offset + shown ≤ selected then { p with offset := selected + 1 - shown }
      else { p with offset }

namespace Session

/-! ## Taking note of sizes -/

/-- The lines of the selected event. -/
def detailTexts (s : Session) : List String :=
  match s.currentRow? with
  | some row => (Json.object row).detailLines 0 false
  | none => ["No event selected"]

def widths (s : Session) : List Nat := columnWidths s.table.columns s.table.visibleRows

def rowLines (s : Session) : List String :=
  let widths := s.widths
  s.table.visibleRows.map (rowLine s.table.columns widths)

/-- Takes note of the sizes of the list, and keeps its rows from being shifted too far. -/
def measureList (s : Session) (f : Frame) : Session :=
  let rowWidth :=
    (s.rowLines.map Text.width).foldl max (Text.width (headerLine s.table s.widths))
  let viewport :=
    { s.viewport with listHeight := f.list.height - 3, listWidth := f.rowWidth, rowWidth }
  { s with viewport }.clampShift

/-- Takes note of the sizes of the event, and keeps it from being scrolled too far. -/
def measureDetail (s : Session) (f : Frame) : Session :=
  if f.detail.isEmpty then s
  else
    let viewport :=
      { s.viewport with
        detailHeight := f.detail.height - 2
        detailLines := wrappedHeight s.detailTexts (f.detail.width - 2) }
    let s := { s with viewport }
    if s.lastScroll < s.scroll.toNat then { s with scroll := UInt16.ofNat s.lastScroll } else s

/-- How many items show in an area. -/
def shownItems (a : Area) : Nat := if a.isEmpty then 0 else a.height

/-- Moves the list of the panel that is open. -/
def settlePanel (s : Session) (f : Frame) : Session :=
  match s.input with
  | .columns | .filter (.column _) =>
    let count := s.table.columns.length
    let shown := shownItems (f.screen.columnPanel count).inner
    { s with columnList := s.columnList.settle count shown }
  | .parsers | .parserTest _ =>
    { s with
      parserList := s.parserList.settle s.registry.parsers.length (shownItems f.parserParts.1) }
  | .sources =>
    let count := s.sources.length
    let shown := shownItems (f.screen.sourcePanel count).inner
    { s with sourceList := s.sourceList.settle count shown }
  | _ => s

/-- The session once it has been drawn on a screen. -/
def measure (s : Session) (f : Frame) : Session :=
  let s := s.measureList f
  let rowList := s.rowList.settle s.visibleCount (shownItems f.body)
  ({ s with rowList }.measureDetail f).settlePanel f

end Session

/-! ## Drawing -/

namespace Canvas

/-- Stands before the selected item of a list. -/
def selectionMark : String := "▸ "

/-- Draws the items of a list from its offset on. When one is selected, all stand to the right of
the place for its mark. -/
def items (c : Canvas) (a : Area) (p : ListPosition) (items : List String) : Canvas :=
  if a.isEmpty then c
  else
    ((items.drop p.offset).take a.height).zipIdx.foldl (fun c item =>
      let y := a.y + item.2
      match p.selected with
      | none => c.text ⟨a.x, y, a.width, 1⟩ item.1
      | some selected =>
        let isSelected := selected = p.offset + item.2
        let c := c.text ⟨a.x + 2, y, a.width - 2, 1⟩ item.1
        c.text ⟨a.x, y, a.width, 1⟩ (if isSelected then selectionMark else "  ")) c

/-- Draws a panel with a list. -/
def listPanel (c : Canvas) (a : Area) (title : String) (p : ListPosition) (items : List String) :
    Canvas :=
  ((c.clear a).box a title).items a.inner p items

/-- Draws the table. The rows stand where they were shifted to before the session took note of
sizes. -/
def table (c : Canvas) (f : Frame) (s : Session) (shift : Nat) : Canvas :=
  let c := c.box f.list s.tableTitle
  let inner := f.list.inner
  if inner.height = 0 then c
  else
    let header := sliceLine (headerLine s.table s.widths) s.shift f.rowWidth
    let c := c.text { inner with height := 1 } ("  " ++ header)
    let rows := s.rowLines
    if rows.isEmpty then c.text f.body s.emptyText
    else c.items f.body s.rowList (rows.map fun line => sliceLine line shift f.rowWidth)

/-- Draws the selected event. -/
def detail (c : Canvas) (f : Frame) (s : Session) : Canvas :=
  (c.box f.detail "Event").paragraph f.detail.inner false s.scroll.toNat s.detailTexts

def status (c : Canvas) (f : Frame) (s : Session) : Canvas :=
  ((c.clear f.status).box f.status "").paragraph f.status.inner true 0 s.statusLines

/-- Draws the list of parsers, and below it the part where one is tried. -/
def parserPanel (c : Canvas) (f : Frame) (s : Session) : Canvas :=
  let a := f.screen.parserPanel
  let (list, test) := f.parserParts
  let c := (c.clear a).box a "Parsers (n new, e edit, d delete, t test, Esc close)"
  let c := c.items list s.parserList s.registry.names
  if test.isEmpty then c
  else
    let c := (c.fill test.y test.x test.right "─").text test "Test"
    c.paragraph { test with y := test.y + 1, height := test.height - 1 } false 0 s.testLines

/-- Draws the panel that is open. -/
def panel (c : Canvas) (f : Frame) (s : Session) : Canvas :=
  match s.input with
  | .columns | .filter (.column _) =>
    c.listPanel (f.screen.columnPanel s.table.columns.length)
      "Columns (Enter filter, s sort, x clear, J/K move, Esc close)" s.columnList s.columnItems
  | .parsers | .parserTest _ => c.parserPanel f s
  | .sources =>
    c.listPanel (f.screen.sourcePanel s.sources.length) "Traces (Enter open, Esc close)"
      s.sourceList s.sourceItems
  | _ => c

def help (c : Canvas) (f : Frame) : Canvas :=
  let texts := helpLines none shortcuts
  let a := f.screen.helpPanel texts.length
  ((c.clear a).box a "Shortcuts").paragraph a.inner false 0 texts

end Canvas

/-- Draws a session on a screen, and gives the session that has taken note of it. -/
def Session.draw (s : Session) (width height : Nat) : Canvas × Session :=
  let f := Frame.ofSession s width height
  let shift := s.shift
  let s := s.measure f
  let c := ((Canvas.blank f.screen.width f.screen.height).table f s shift).detail f s
  let c := (c.status f s).panel f s
  (if s.showsHelp then c.help f else c, s)

end TraceViewer
