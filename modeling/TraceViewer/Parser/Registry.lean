import TraceViewer.Parser.Name
import TraceViewer.Snippet.Eval
import TraceViewer.Snippet.Production

/-!
The parsers that filters can call: named snippets, each turned into a function value when it is
registered. A parser is listed exactly when its name is bound, because the list is what binds the
names.
-/

namespace TraceViewer

open Snippet (Error Value Heap Limits Setting Run)

/-- A parser: its name, its source text, and the function that it stands for. -/
structure Parser where
  name : String
  source : String
  callable : Value

/-- Parsers in the order in which their names were first registered, the limits that they run
under, and the scopes and marks of everything that ran so far. -/
structure Registry where
  parsers : List Parser := []
  limits : Limits := {}
  heap : Heap := {}

/-- Why a source text does not become a parser. -/
inductive CompileFault where
  | badSnippet (name : String) (error : Error)
  | notCallable (name kind : String)
  | noBinding (name binding : String)
  | noName

def CompileFault.message : CompileFault → String
  | .badSnippet name error => "parser " ++ Text.quoted name ++ ": " ++ error.message
  | .notCallable name kind =>
    "parser " ++ Text.quoted name ++ " does not evaluate to a function (got " ++ kind ++ ")"
  | .noBinding name binding =>
    "parser " ++ Text.quoted name ++ " declares no binding named " ++ Text.quoted binding
  | .noName => "parser name must not be empty"

namespace Registry

def names (r : Registry) : List String := r.parsers.map (·.name)

/-- The parser of a name. -/
def find? (r : Registry) (name : String) : Option Parser := r.parsers.find? fun p => p.name == name

/-- What the snippets of a registry run under: each parser's name is bound to its function. -/
def setting (r : Registry) : Setting :=
  { globals := r.parsers.map fun p => (p.name, p.callable), limits := r.limits }

/-- Runs something with no step taken so far, and keeps what it leaves in the heap. -/
def perform (r : Registry) (run : Setting → Run α) : Except Error α × Registry :=
  let setting := r.setting
  let ⟨parsers, limits, heap⟩ := r
  match run setting { heap } with
  | .ok a m => (.ok a, ⟨parsers, limits, m.heap⟩)
  | .error e m => (.error e, ⟨parsers, limits, m.heap⟩)

/-- A number that no source text has yet. -/
def source (r : Registry) : Nat × Registry :=
  let ⟨parsers, limits, heap⟩ := r
  let (number, heap) := heap.source
  (number, ⟨parsers, limits, heap⟩)

/-- The scopes and marks aside, performing a run changes nothing. -/
@[simp] theorem parsers_perform (r : Registry) (run : Setting → Run α) :
    (r.perform run).2.parsers = r.parsers := by
  simp only [perform]; split <;> rfl

@[simp] theorem limits_perform (r : Registry) (run : Setting → Run α) :
    (r.perform run).2.limits = r.limits := by
  simp only [perform]; split <;> rfl

/-! ## Registering -/

/-- The variable that a source text without blanks at its ends gives the function to; none when the
text is an expression that is the function. -/
def binding? (name code : String) : Option String :=
  -- a declaration under another name is found by `programValue`
  if Text.hasStart code "function" then some name
  else if Text.contains code "=>" then String.ofList <$> Parser.boundName? code.toList
  else none

/-- Runs a program, and gives the value of the variable, else of the function that the program
declares first. -/
def programValue (setting : Setting) (binding : String) (program : List Snippet.Stmt) :
    Run (Option Value) := do
  let env ← Run.openTop []
  let _ ← Snippet.runProgram setting env program
  let bound ← Run.askHeap fun h => h.lookup? env.scope binding
  let declared ← Run.askHeap fun h =>
    (Snippet.firstFunctionName program).bind fun name => h.lookup? env.scope name
  return bound <|> declared

/-- The value of an expression that was just read. -/
def exprValue (setting : Setting) (e : Snippet.Expr) : Run Value := do
  let env ← Run.openTop []
  Snippet.runExpr setting env e

/-- The value of a source text. -/
def codeValue (r : Registry) (name code : String) : Except CompileFault Value × Registry :=
  match binding? name code with
  | some binding =>
    match Snippet.readProgram code with
    | .error e => (.error (.badSnippet name e), r)
    | .ok program =>
      match r.perform fun setting => programValue setting binding program with
      | (.error e, r) => (.error (.badSnippet name e), r)
      | (.ok none, r) => (.error (.noBinding name binding), r)
      | (.ok (some v), r) => (.ok v, r)
  | none =>
    match Snippet.readExpr code with
    | .error e => (.error (.badSnippet name e), r)
    | .ok e =>
      match r.perform fun setting => exprValue setting e with
      | (.error e, r) => (.error (.badSnippet name e), r)
      | (.ok v, r) => (.ok v, r)

/-- The function that a source text stands for. -/
def compile (r : Registry) (name source : String) : Except CompileFault Value × Registry :=
  match r.codeValue name (Text.trim source) with
  | (.error fault, r) => (.error fault, r)
  | (.ok v, r) =>
    -- what running the text did to the heap stays, even when it gives no function
    if v.isCallable then (.ok v, r) else (.error (.notCallable name v.kind), r)

/-- Empties the scope that a function was made in, once its parser is gone. -/
def retire (heap : Heap) : Value → Heap
  | .closure _ c => heap.clear c.scope
  | _ => heap

/-- Puts a parser in the place of the one of its name, or at the end. -/
def insert (parser : Parser) : List Parser → List Parser
  | [] => [parser]
  | p :: rest => if p.name == parser.name then parser :: rest else p :: insert parser rest

/-- Registers a source text under a name without the blanks at its ends. A text that cannot be
compiled changes no parser. -/
def register (r : Registry) (name source : String) : Except CompileFault Unit × Registry :=
  let name := Text.trim name
  if name.isEmpty then (.error .noName, r)
  else
    match r.compile name source with
    | (.error fault, r) => (.error fault, r)
    | (.ok callable, r) =>
      -- the old function is looked up after compiling, which may have called it
      let old := r.find? name
      let ⟨parsers, limits, heap⟩ := r
      let heap :=
        match old with
        | some p => retire heap p.callable
        | none => heap
      (.ok (), ⟨insert ⟨name, source, callable⟩ parsers, limits, heap⟩)

/-- Registers several parsers, and counts those that could be compiled. -/
def registerAll (r : Registry) : List (String × String) → Nat × Registry
  | [] => (0, r)
  | (name, source) :: rest =>
    let (outcome, r) := r.register name source
    -- a text that is refused does not stop those after it
    let (count, r) := r.registerAll rest
    match outcome with
    | .ok () => (count + 1, r)
    | .error _ => (count, r)

/-- Removes the parser of a name, and gives it. -/
def remove (r : Registry) (name : String) : Option Parser × Registry :=
  match r.find? name with
  | none => (none, r)
  | some p =>
    let ⟨parsers, limits, heap⟩ := r
    (some p, ⟨parsers.eraseP fun p => p.name == name, limits, retire heap p.callable⟩)

/-! ## Calling -/

/-- The result of a parser for a text, as JSON. -/
def test (r : Registry) (name input : String) : Except Error String × Registry :=
  match r.find? name with
  | none => (.error (.unbound name), r)
  | some p =>
    match r.perform fun setting => Snippet.runCall setting p.callable [.text input] with
    | (.error e, r) => (.error e, r)
    | (.ok .undefined, r) => (.ok "undefined", r)
    | (.ok v, r) => (.ok v.toJson.compact, r)

/-! ## The parser that is there without being registered -/

def shapeName : String := "tensorShape"

/-- Takes the text between the brackets of "Tensor[…]" up to a bar, and gives the numbers that
stand between the letters "x" in it. -/
def shapeSource : String :=
  Text.join "\n"
    ["function tensorShape(x) \x7b",
     "    const match = x.match(/Tensor\\[(.*?)\\]/);",
     "    if (!match) return null;",
     "    const parts = match[1].split('|');",
     "    const shapeStr = parts[0];",
     "    return shapeStr.split('x').map(dim => parseInt(dim, 10));",
     "\x7d"]

/-- Registers the default parser where there is no other, and tells whether it did. -/
def seed (r : Registry) : Bool × Registry :=
  if r.parsers.isEmpty then
    match r.register shapeName shapeSource with
    | (.ok (), r) => (true, r)
    | (.error _, r) => (false, r)
  else (false, r)

end Registry

end TraceViewer
