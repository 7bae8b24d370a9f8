import TraceViewer.Number.Whole

/-!
Rectangles of screen cells, and how one is divided into others.
-/

namespace TraceViewer

/-- A rectangle of cells; its first column and row, and its size. -/
structure Area where
  x : Nat
  y : Nat
  width : Nat
  height : Nat
  deriving Repr, DecidableEq

namespace Area

/-- The most cells that an area has. -/
def maxCells : Nat := 65535

/-- An area of a given size. One of too many cells shrinks in proportion. -/
def sized (x y width height : Nat) : Area :=
  if width * height ≤ maxCells then ⟨x, y, width, height⟩
  else
    let ratio := Number.ofNat width / Number.ofNat height
    let high := (Number.ofNat maxCells / ratio).sqrt
    ⟨x, y, Number.wholePart (high * ratio), Number.wholePart high⟩

def isEmpty (a : Area) : Bool := a.width == 0 || a.height == 0

/-- The column after the last one. -/
def right (a : Area) : Nat := a.x + a.width

/-- The row after the last one. -/
def bottom (a : Area) : Nat := a.y + a.height

/-- What a border leaves of an area. -/
def inner (a : Area) : Area :=
  ⟨min (a.x + 1) a.right, min (a.y + 1) a.bottom, a.width - 2, a.height - 2⟩

/-- An area of a given size, as far as that fits, in the middle of another one. -/
def centered (a : Area) (width height : Nat) : Area :=
  let width := min width a.width
  let height := min height a.height
  ⟨a.x + (a.width - width) / 2, a.y + (a.height - height) / 2, width, height⟩

/-- The rows above the last `rows` ones, and those. Three rows stay above, if there are that
many. -/
def splitBottom (a : Area) (rows : Nat) : Area × Area :=
  let above := max (a.height - rows) (min 3 a.height)
  ({ a with height := above }, { a with y := a.y + above, height := a.height - above })

/-- Three fifths of the columns, to the nearest column, and the rest. -/
def splitColumns (a : Area) : Area × Area :=
  let left := (6 * a.width + 5) / 10
  ({ a with width := left }, { a with x := a.x + left, width := a.width - left })

/-- A number kept between two bounds. -/
def clamp (low high n : Nat) : Nat := max low (min high n)

end Area

end TraceViewer
