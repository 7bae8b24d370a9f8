import TraceViewer.Screen.Area
import TraceViewer.Screen.Wrap

/-!
A screen as rows of cells, and drawing texts and boxes on it. What does not fit is cut off.
-/

namespace TraceViewer

/-- The text of each cell, row by row. -/
structure Canvas where
  rows : Array (Array String)

namespace Canvas

def blankCell : String := " "

/-- An empty canvas. -/
def blank (width height : Nat) : Canvas :=
  ⟨Array.replicate height (Array.replicate width blankCell)⟩

/-- Puts a text into one cell; outside the canvas there is none. -/
def put (c : Canvas) (x y : Nat) (text : String) : Canvas :=
  ⟨c.rows.modify y fun row => row.setIfInBounds x text⟩

/-- Puts a text into each of some cells of a row. -/
def fill (c : Canvas) (y start stop : Nat) (text : String) : Canvas :=
  (List.range' start (stop - start)).foldl (fun c x => c.put x y text) c

/-- Empties an area. -/
def clear (c : Canvas) (a : Area) : Canvas :=
  (List.range' a.y a.height).foldl (fun c y => c.fill y a.x a.right blankCell) c

/-- Draws symbols from a cell on, before the column `stop`. Wide symbols cover the cells after
them. -/
def symbols (c : Canvas) (x y stop : Nat) : List Symbol → Canvas
  | [] => c
  | s :: rest =>
    if s.width = 0 then c.symbols x y stop rest
    else if stop < x + s.width then c
    else
      let c := (c.put x y (.ofList s.chars)).fill y (x + 1) (x + s.width) blankCell
      c.symbols (x + s.width) y stop rest

/-- Draws a text in the first row of an area. -/
def text (c : Canvas) (a : Area) (s : String) : Canvas :=
  if a.isEmpty then c else c.symbols a.x a.y a.right (Symbol.ofLine s)

/-- Draws lines one below the other. -/
def lines (c : Canvas) (a : Area) (lines : List (List Symbol)) : Canvas :=
  (lines.take a.height).zipIdx.foldl (fun c l => c.symbols a.x (a.y + l.2) a.right l.1) c

/-- Draws texts broken to the width of an area, without the first `skipped` lines. -/
def paragraph (c : Canvas) (a : Area) (trims : Bool) (skipped : Nat) (texts : List String) :
    Canvas :=
  if a.isEmpty then c else c.lines a ((texts.flatMap (wrapLine a.width trims)).drop skipped)

/-- Draws a border with a title in its top edge. -/
def box (c : Canvas) (a : Area) (title : String) : Canvas :=
  if a.isEmpty then c
  else
    let c := (List.range' a.y a.height).foldl (fun c y =>
      (c.put a.x y "│").put (a.right - 1) y "│") c
    let c := (c.fill a.y a.x a.right "─").fill (a.bottom - 1) a.x a.right "─"
    let c := (c.put (a.right - 1) (a.bottom - 1) "┘").put (a.right - 1) a.y "┐"
    let c := (c.put a.x (a.bottom - 1) "└").put a.x a.y "┌"
    c.text ⟨a.x + 1, a.y, a.width - 2, 1⟩ title

/-- The cells of a row from left to right, without those that a wide symbol covers. -/
def joinCells (covered : Nat) : List String → String
  | [] => ""
  | cell :: rest =>
    (if covered = 0 then cell else "") ++
      joinCells (max covered (Text.width cell) - 1) rest

/-- The rows as texts, without the blanks at their ends. -/
def texts (c : Canvas) : List String :=
  c.rows.toList.map fun row => Text.trimEnd (joinCells 0 row.toList)

end Canvas

end TraceViewer
