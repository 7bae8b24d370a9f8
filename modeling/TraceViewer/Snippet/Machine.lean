import TraceViewer.Snippet.Error
import TraceViewer.Snippet.Value

/-!
What a running snippet changes: the scopes that hold its variables, the marks given to new values,
and the counters that limits apply to. A scope refers to the one around it by number, and a scope
is always younger than the one around it.
-/

namespace TraceViewer.Snippet

/-- The variables of one scope and the number of the scope around it. -/
structure Scope where
  vars : List (String × Value)
  parent : Option Nat

/-- What outlives a run: all scopes, the next mark for a new value, and the next number for a source
text. -/
structure Heap where
  scopes : Array Scope := #[]
  nextMark : Nat := 0
  nextSource : Nat := 0

/-- How many steps a run may take and how deep its calls may go. -/
structure Limits where
  steps : Nat := 100000
  depth : Nat := 64
  deriving Repr, DecidableEq

/-- The deepest recursion of expressions and statements, across calls. -/
def maxNesting : Nat := 200

/-- A count that goes up and down again, with the highest that it has been. -/
structure Gauge where
  now : Nat := 0
  peak : Nat := 0
  deriving Repr, DecidableEq

namespace Gauge

def up (g : Gauge) : Gauge := ⟨g.now + 1, max g.peak (g.now + 1)⟩

def down (g : Gauge) : Gauge := { g with now := g.now - 1 }

@[simp] theorem now_up (g : Gauge) : g.up.now = g.now + 1 := rfl

@[simp] theorem peak_up (g : Gauge) : g.up.peak = max g.peak (g.now + 1) := rfl

@[simp] theorem now_down (g : Gauge) : g.down.now = g.now - 1 := rfl

@[simp] theorem peak_down (g : Gauge) : g.down.peak = g.peak := rfl

end Gauge

/-- The state of a run: `depth` counts the calls and `nesting` the expressions and statements that
are under way, and `escapes` how often a closure was stored in a variable that existed before,
where it may outlive the scope it was made in. -/
structure Machine where
  heap : Heap
  steps : Nat := 0
  depth : Gauge := {}
  nesting : Gauge := {}
  escapes : Nat := 0

/-- What a run does not change: the names that all snippets share, the limits, and whether finished
scopes are emptied. -/
structure Setting where
  globals : List (String × Value) := []
  limits : Limits := {}
  releases : Bool := true

/-- The scope that a piece of code runs in and the number of the source text that it stands in. -/
structure Env where
  scope : Nat
  source : Nat

/-- Running keeps the state also when it fails. -/
abbrev Run := EStateM Error Machine

/-! ## Variables -/

/-- Gives a variable of a list a value, adding it if it is new. -/
def setVar (name : String) (value : Value) : List (String × Value) → List (String × Value)
  | [] => [(name, value)]
  | (n, v) :: rest => if n == name then (name, value) :: rest else (n, v) :: setVar name value rest

namespace Heap

/-- Adds an empty scope inside another one, or outside all. -/
def addScope (h : Heap) (parent : Option Nat) (vars : List (String × Value)) : Nat × Heap :=
  (h.scopes.size, { h with scopes := h.scopes.push ⟨vars, parent⟩ })

/-- Changes the variables of one scope. -/
def modifyVars (h : Heap) (scope : Nat) (f : List (String × Value) → List (String × Value)) :
    Heap :=
  { h with scopes := h.scopes.modify scope fun s => { s with vars := f s.vars } }

/-- The scope nearest to `scope`, from it outwards, that has a variable of the given name, with the
variable's value. -/
def find? (h : Heap) (scope : Nat) (name : String) : Option (Nat × Value) :=
  match h.scopes[scope]? with
  | none => none
  | some s =>
    match s.vars.lookup name with
    | some v => some (scope, v)
    | none =>
      match s.parent with
      | none => none
      -- a parent is older than its scope, which the guard makes evident to the recursion
      | some parent => if parent < scope then h.find? parent name else none
termination_by scope

/-- The value of a variable as seen from a scope. -/
def lookup? (h : Heap) (scope : Nat) (name : String) : Option Value :=
  (h.find? scope name).map (·.2)

/-- The value of a variable of the scope itself. -/
def own? (h : Heap) (scope : Nat) (name : String) : Option Value :=
  h.scopes[scope]?.bind fun s => s.vars.lookup name

/-- Gives an existing variable a new value; none when no scope from `scope` outwards has it. -/
def assign? (h : Heap) (scope : Nat) (name : String) (value : Value) : Option Heap :=
  (h.find? scope name).map fun found => h.modifyVars found.1 (setVar name value)

/-- Declares a variable in a scope. -/
def declare (h : Heap) (scope : Nat) (name : String) (value : Value) : Heap :=
  h.modifyVars scope (setVar name value)

/-- Removes all variables of a scope. -/
def clear (h : Heap) (scope : Nat) : Heap := h.modifyVars scope fun _ => []

/-- A mark that no value has yet. -/
def mark (h : Heap) : Nat × Heap := (h.nextMark, { h with nextMark := h.nextMark + 1 })

/-- A number that no source text has yet. -/
def source (h : Heap) : Nat × Heap := (h.nextSource, { h with nextSource := h.nextSource + 1 })

/-- The value of a JSON document, with new marks. -/
def ofJson (h : Heap) (j : Json) : Value × Heap :=
  let (v, next) := Value.ofJson h.nextMark j
  (v, { h with nextMark := next })

end Heap

/-! ## Steps of a run -/

namespace Run

/-- Applies a function that also makes something to the heap. -/
def onHeap (f : Heap → α × Heap) : Run α := fun m =>
  let (a, heap) := f m.heap
  .ok a { m with heap }

/-- Changes the heap. -/
def changeHeap (f : Heap → Heap) : Run Unit := fun m => .ok () { m with heap := f m.heap }

/-- Looks at the heap. -/
def askHeap (f : Heap → α) : Run α := fun m => .ok (f m.heap) m

def newArray (items : List Value) : Run Value := do return .array (← onHeap Heap.mark) items

def newObject (fields : Fields Value) : Run Value := do return .object (← onHeap Heap.mark) fields

def mistyped (fault : TypeFault) : Run α := throw (.mistyped fault)

/-- Gives what was made of values, if they are made for it. -/
def typed : Except TypeFault α → Run α
  | .ok a => pure a
  | .error fault => mistyped fault

/-- Takes a step, which fails when the steps are spent. -/
def tick (limits : Limits) : Run Unit := fun m =>
  -- the step counts even when it is the one too many
  let m := { m with steps := m.steps + 1 }
  if limits.steps < m.steps then .error (.budgetSpent limits.steps) m else .ok () m

/-- Runs something whatever its outcome, and gives the outcome. -/
def attempt (r : Run α) : Run (Except Error α) := fun m =>
  match r m with
  | .ok a m => .ok (.ok a) m
  | .error e m => .ok (.error e) m

/-- Ends with an outcome. -/
def conclude : Except Error α → Run α
  | .ok a => pure a
  | .error e => throw e

/-- Counts an escape when a value holds a closure. -/
def noteEscape (escapes : Bool) : Run Unit := fun m =>
  .ok () (if escapes then { m with escapes := m.escapes + 1 } else m)

/-- Empties a finished scope, unless a closure that may need it got out since `escapes` were
counted: by being stored in an older variable, or with the value that is handed on. -/
def release (setting : Setting) (scope escapes : Nat) (handedOn : Option Value) :
    Run Unit := fun m =>
  if setting.releases && m.escapes == escapes && !handedOn.any Value.holdsClosure then
    .ok () { m with heap := m.heap.clear scope }
  else .ok () m

/-- A new scope outside all others, for a source text. -/
def openScope (vars : List (String × Value)) (source : Nat) : Run Env := do
  return ⟨← onHeap fun h => h.addScope none vars, source⟩

/-- A new scope outside all others, for a source text of a new number. -/
def openTop (vars : List (String × Value)) : Run Env := do
  let source ← onHeap Heap.source
  openScope vars source

end Run

end TraceViewer.Snippet
