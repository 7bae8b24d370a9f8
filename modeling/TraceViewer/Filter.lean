import TraceViewer.Parser.Registry
import TraceViewer.Text.LetterCase
import TraceViewer.Trace.Event

/-!
Filters: texts in the snippet language that decide which rows show. A filter of a column sees the
text of one cell, and a filter of rows sees the whole event. Both can call the registered parsers.
-/

namespace TraceViewer

open Snippet (Error Value Run)

/-- A filter text that failed to be read or evaluated. -/
structure FilterFault where
  text : String
  cause : Error

def FilterFault.message (f : FilterFault) : String :=
  "filter " ++ Text.quoted f.text ++ ": " ++ f.cause.message

/-- Whether a value is the truth value true, and nothing that merely counts as true. -/
def Snippet.Value.isTrue (v : Value) : Bool := v.strictEq (.bool true)

/-! ## Filters of a column -/

/-- What a filter does with a cell that it cannot be evaluated for: a call rejects the cell, and a
bare text keeps the cells that it is found in. -/
inductive FilterShape where
  | call
  | bare
  deriving Repr, DecidableEq

/-- A text with both parentheses is a call. -/
def FilterShape.ofText (text : String) : FilterShape :=
  if text.contains '(' && text.contains ')' then .call else .bare

/-- A filter of a column: its text, the number of the text among all source texts, and what
reading it gave. -/
structure CellFilter where
  text : String
  source : Nat
  parsed : Except Error Snippet.Expr

namespace CellFilter

def shape (f : CellFilter) : FilterShape := .ofText f.text

/-- The value of the filter for a cell, which goes by the name "value". -/
def eval (f : CellFilter) (cell : String) (r : Registry) : Except FilterFault Value × Registry :=
  match f.parsed with
  | .error e => (.error ⟨f.text, e⟩, r)
  | .ok expr =>
    match r.perform fun setting => do
      let env ← Run.openScope [("value", .text cell)] f.source
      Snippet.runExpr setting env expr with
    | (.ok v, r) => (.ok v, r)
    | (.error e, r) => (.error ⟨f.text, e⟩, r)

/-- Whether the text of the filter stands in a cell, letter case aside. -/
def isFoundIn (f : CellFilter) (cell : String) : Bool :=
  Text.contains (Text.toLower cell) (Text.toLower f.text)

/-- The decision about a cell that evaluating the filter led to. -/
def decide (f : CellFilter) (cell : String) : Except FilterFault Value → Bool
  | .ok v => v.isTrue
  | .error _ => f.shape == .bare && f.isFoundIn cell

/-- Whether the filter keeps a cell. -/
def keep (f : CellFilter) (cell : String) (r : Registry) : Bool × Registry :=
  let (outcome, r) := f.eval cell r
  (f.decide cell outcome, r)

end CellFilter

/-- The filters of columns that were read so far, one for each text. -/
structure FilterCache where
  filters : List CellFilter := []

namespace FilterCache

/-- The number of texts that were read. -/
def size (c : FilterCache) : Nat := c.filters.length

/-- The filter that a text stands for, read only the first time. A blank text is no filter. -/
def compile (c : FilterCache) (text : String) (r : Registry) :
    Option CellFilter × FilterCache × Registry :=
  let text := Text.trim text
  if text.isEmpty then (none, c, r)
  else
    match c.filters.find? fun f => f.text == text with
    | some f => (some f, c, r)
    | none =>
      let (source, r) := r.source
      let f : CellFilter := ⟨text, source, Snippet.readExpr text⟩
      (some f, ⟨c.filters ++ [f]⟩, r)

/-- Whether a text keeps a cell; a blank text keeps all. -/
def keepCell (c : FilterCache) (text cell : String) (r : Registry) :
    Bool × FilterCache × Registry :=
  match c.compile text r with
  | (none, c, r) => (true, c, r)
  | (some f, c, r) =>
    let (kept, r) := f.keep cell r
    (kept, c, r)

end FilterCache

/-! ## Filters of rows -/

/-- A filter of rows. -/
structure RowFilter where
  text : String
  source : Nat
  expr : Snippet.Expr

namespace RowFilter

/-- Reads a filter of rows. A blank text is no filter. -/
def compile (text : String) (r : Registry) : Except FilterFault (Option RowFilter) × Registry :=
  let text := Text.trim text
  if text.isEmpty then (.ok none, r)
  else
    match Snippet.readExpr text with
    | .error e => (.error ⟨text, e⟩, r)
    | .ok expr =>
      let (source, r) := r.source
      (.ok (some ⟨text, source, expr⟩), r)

/-- The event as an object, under the name "row". -/
def eventValue (e : Event) : Run Value := Run.onHeap fun h => h.ofJson (.object e)

/-- The value of the filter for an event. A filter that is a function is called with the event, in
the same run. -/
def eval (f : RowFilter) (e : Event) (r : Registry) : Except Error Value × Registry :=
  r.perform fun setting => do
    let row ← eventValue e
    let env ← Run.openScope [("row", row)] f.source
    let v ← Snippet.runExpr setting env f.expr
    if v.isCallable then Snippet.runCall setting v [row] else return v

/-- Whether the filter keeps an event; one that it cannot be evaluated for is kept. -/
def keep (f : RowFilter) (e : Event) (r : Registry) : Bool × Registry :=
  match f.eval e r with
  | (.ok v, r) => (v.isTrue, r)
  | (.error _, r) => (true, r)

end RowFilter

end TraceViewer
