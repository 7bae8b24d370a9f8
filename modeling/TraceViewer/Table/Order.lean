import TraceViewer.Number.Reading
import TraceViewer.Text.LetterCase
import TraceViewer.Text.Search

/-!
The order of the cells of a column, and sorting by an order that need not be transitive: among
numbers and other texts, three cells may well stand in a circle.
-/

namespace TraceViewer

/-- What the order of a cell depends on. -/
structure SortKey where
  number? : Option Float
  folded : String
  text : String

/-- The finite number that a text writes, blanks at its ends aside. -/
def cellNumber? (text : String) : Option Float :=
  (Number.decimal? (Text.trim text).toList).filter Number.isFinite

namespace SortKey

def ofText (text : String) : SortKey := ⟨cellNumber? text, Text.toLower text, text⟩

/-- Two numbers by their values; otherwise the texts without regard to letter case, and then as
they stand. -/
def compare (a b : SortKey) : Ordering :=
  match a.number?, b.number? with
  | some x, some y => if x < y then .lt else if y < x then .gt else .eq
  | _, _ => (Ord.compare a.folded b.folded).then (Ord.compare a.text b.text)

end SortKey

/-- The order of two cells. -/
def compareCells (a b : String) : Ordering := (SortKey.ofText a).compare (SortKey.ofText b)

/-- The direction in which a column is sorted. -/
inductive Direction where
  | ascending
  | descending
  deriving Repr, DecidableEq

namespace Direction

def arrow : Direction → String
  | .ascending => "▲"
  | .descending => "▼"

/-- Whether the first of two items goes before the second. -/
def precedes (d : Direction) (order : Ordering) : Bool :=
  match d with
  | .ascending => order == .lt
  | .descending => order == .gt

end Direction

/-! ## Sorting -/

/-- Merges two lists; of two items the second list's goes first only where it is less. -/
def merge (less : α → α → Bool) : List α → List α → List α
  | [], ys => ys
  | xs, [] => xs
  | x :: xs, y :: ys =>
    if less y x then y :: merge less (x :: xs) ys else x :: merge less xs (y :: ys)
termination_by xs ys => xs.length + ys.length

/-- Sorts each half and merges them. Items of which neither is less keep their order. -/
def mergeSort (less : α → α → Bool) (xs : List α) : List α :=
  if xs.length ≤ 1 then xs
  else
    let half := xs.length / 2
    merge less (mergeSort less (xs.take half)) (mergeSort less (xs.drop half))
termination_by xs.length
decreasing_by all_goals grind

end TraceViewer
