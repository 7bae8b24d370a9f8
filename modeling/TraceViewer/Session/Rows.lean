import TraceViewer.Session.State

/-!
Moving through the rows and through the lines of the selected event.
-/

namespace TraceViewer.Session

/-- Goes back to the first line of the event. -/
def resetScroll (s : Session) : Session := { s with scroll := 0 }

/-! ## Rows -/

def moveSelection (s : Session) (delta : Int) : Session :=
  if s.visibleCount = 0 then s
  else
    let selected := Table.shifted (s.rowList.selected.getD 0) delta s.visibleCount
    { s with rowList := s.rowList.select (some selected) }.resetScroll

def selectFirst (s : Session) : Session :=
  { s with rowList := { s.rowList.selectFirst s.visibleCount with offset := 0 } }.resetScroll

def selectLast (s : Session) : Session :=
  { s with rowList := s.rowList.selectLast s.visibleCount }.resetScroll

/-- Half of a height, and at least one. -/
def halfPage (height : Nat) : Nat := max (max height 1 / 2) 1

def pageDown (s : Session) : Session := s.moveSelection (halfPage s.viewport.listHeight)

def pageUp (s : Session) : Session := s.moveSelection (-(halfPage s.viewport.listHeight : Int))

/-- Keeps the selection within the rows that show, and selects a row where there is one. -/
def clampSelection (s : Session) : Session :=
  let count := s.visibleCount
  let selected :=
    if count = 0 then none else some (min (s.rowList.selected.getD 0) (count - 1))
  { s with rowList := s.rowList.select selected }.resetScroll

/-! ## Lines of the event -/

/-- The number of lines before the last page. -/
def lastScroll (s : Session) : Nat := s.viewport.detailLines - max s.viewport.detailHeight 1

/-- So many lines that scrolling down by them leads to the last page: half of what a machine word
counts. -/
def farDown : Nat := 9223372036854775807

/-- Scrolls down at most to the last page; the position is cut to sixteen bits. -/
def scrollDown (s : Session) (lines : Nat) : Session :=
  if s.viewport.detailLines = 0 then s
  else { s with scroll := UInt16.ofNat (min (s.scroll.toNat + lines) s.lastScroll) }

/-- Scrolls up; the number of lines is cut to sixteen bits. -/
def scrollUp (s : Session) (lines : Nat) : Session :=
  { s with scroll := UInt16.ofNat (s.scroll.toNat - (UInt16.ofNat lines).toNat) }

/-! ## Columns that show -/

/-- How many cells the rows are wider than the list. -/
def lastShift (s : Session) : Nat := s.viewport.rowWidth - s.viewport.listWidth

def clampShift (s : Session) : Session := { s with shift := min s.shift s.lastShift }

/-- A quarter of the list's width, and at least four cells. -/
def shiftStep (s : Session) : Nat := max (s.viewport.listWidth / 4) 4

end TraceViewer.Session
