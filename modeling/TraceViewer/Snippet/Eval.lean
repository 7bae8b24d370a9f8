import TraceViewer.Regex.Engine
import TraceViewer.Snippet.Method

/-!
Running snippets. Every expression and statement takes a step and a level of nesting; the functions
of one level are built from the functions of the level inside it, so the levels bound the
recursion, and the steps that are left bound the rounds of every loop.
-/

namespace TraceViewer.Snippet

/-- How a statement ends: normally, or by leaving what surrounds it. -/
inductive Flow where
  | normal
  | return (v : Value)
  | leave
  | continue

/-- The value that a flow hands on. -/
def Flow.returned : Flow → Option Value
  | .return v => some v
  | _ => none

/-- What can be run with a number of levels left. A target is the object of a chain's link; it is
none when a guarded link further left ended the chain. -/
structure Evaluators where
  eval : Env → Expr → Run Value
  target : Env → Expr → Run (Option Value)
  exec : Env → Stmt → Run Flow

namespace Eval

variable (setting : Setting)

/-! ## Variables -/

/-- The value of a name: a variable, else a shared name, else a global of the language. -/
def lookup (env : Env) (name : String) : Run Value := do
  match ← Run.askHeap fun h => h.lookup? env.scope name with
  | some v => return v
  | none =>
    match setting.globals.lookup name with
    | some v => return v
    | none =>
      match globalValue? name with
      | some v => v
      | none => throw (.unbound name)

/-- Whether a name has a value. -/
def isBound (env : Env) (name : String) : Run Bool := do
  let isVariable ← Run.askHeap fun h => (h.lookup? env.scope name).isSome
  return isVariable || (setting.globals.lookup name).isSome || (globalValue? name).isSome

/-- Gives an existing variable a new value, and tells whether there is such a variable. -/
def assign (env : Env) (name : String) (v : Value) : Run Bool := do
  match ← Run.askHeap fun h => h.assign? env.scope name v with
  | some heap =>
    Run.changeHeap fun _ => heap
    return true
  | none => return false

/-- Stores a value in an existing variable. -/
def store (env : Env) (name : String) (v : Value) : Run Unit := do
  Run.noteEscape v.holdsClosure
  if !(← assign env name v) then throw (.unbound name)

/-- Adds values to the array that a variable holds, and gives the new length. -/
def push (env : Env) (name : String) (items args : List Value) : Run Value := do
  -- the variable lets go of its items first, so that they can grow in place
  if ← assign env name .undefined then
    Run.noteEscape (args.any Value.holdsClosure)
    let grown := items ++ args
    let _ ← assign env name (← Run.newArray grown)
    return .number (Number.ofNat grown.length)
  else Run.mistyped (.cannotPush name)

/-- A function as a value, with the scope that it is made in. -/
def closure (env : Env) (f : Function) : Run Value := do
  return .closure (← Run.onHeap Heap.mark) ⟨f, env.scope, env.source⟩

/-- Runs something in a new scope inside another one, and releases the scope afterwards. -/
def inScope (env : Env) (parent : Nat) (vars : List (String × Value)) (handedOn : α → Option Value)
    (body : Env → Run α) : Run α := do
  let escapes := (← get).escapes
  let scope ← Run.onHeap fun h => h.addScope (some parent) vars
  -- an error releases the scope as well, with nothing handed on
  let outcome ← Run.attempt (body { env with scope })
  let out :=
    match outcome with
    | .ok a => handedOn a
    | .error _ => none
  Run.release setting scope escapes out
  Run.conclude outcome

variable (inner : Evaluators)

/-! ## Statements in sequence -/

/-- Declares the functions of a block in its scope before any statement runs. -/
def hoist (env : Env) : List Stmt → Run Unit
  | [] => return
  | .function f :: rest => do
    match f.name with
    | some name =>
      let v ← closure env f
      Run.changeHeap fun h => h.declare env.scope name v
    | none => pure ()
    hoist env rest
  | _ :: rest => hoist env rest

/-- Runs statements until one does not end normally. -/
def execAll (env : Env) : List Stmt → Run Flow
  | [] => return .normal
  | s :: rest => do
    match ← inner.exec env s with
    | .normal => execAll env rest
    | flow => return flow

def execBlock (env : Env) (body : List Stmt) : Run Flow := do
  hoist env body
  execAll inner env body

/-! ## Calls -/

/-- The parameters of a function with its arguments; a missing one is undefined, and of two
parameters of one name the last counts. -/
def bindParams (params : List String) (args : List Value) : List (String × Value) :=
  (params.zip (args ++ List.replicate params.length .undefined)).foldl
    (fun vars p => setVar p.1 p.2 vars) []

/-- Counts a call while it runs. -/
def counted (r : Run α) : Run α := do
  let limit := setting.limits.depth
  if limit ≤ (← get).depth.now then throw (.tooManyCalls limit)
  else
    modify fun m => { m with depth := m.depth.up }
    -- the count comes back down whatever the outcome
    let outcome ← Run.attempt r
    modify fun m => { m with depth := m.depth.down }
    Run.conclude outcome

/-- The body of a function in the scope of a call. -/
def runBody (env : Env) : Body → Run Value
  | .expr e => inner.eval env e
  | .block body => do
    match ← execBlock inner env body with
    | .return v => return v
    | _ => return .undefined

def callClosure (c : Closure) (args : List Value) : Run Value :=
  counted setting
    (inScope setting ⟨c.scope, c.source⟩ c.scope (bindParams c.function.params args) some
      fun env => runBody inner env c.function.body)

/-- Calls a function value. -/
def call (callee : Value) (args : List Value) : Run Value :=
  match callee with
  | .closure _ c => callClosure setting inner c args
  | .builtin b => pure (applyBuiltin b args)
  | v => Run.mistyped (.notFunction v.kind)

/-! ## Expressions -/

def evalAll (env : Env) : List Expr → Run (List Value)
  | [] => return []
  | e :: rest => do
    let v ← inner.eval env e
    return v :: (← evalAll env rest)

def evalEntries (env : Env) (acc : Fields Value) : List (String × Expr) → Run (Fields Value)
  | [] => return acc
  | (key, e) :: rest => do
    let v ← inner.eval env e
    evalEntries env (acc.set key v) rest

/-- The text of a template: its parts with the values of the holes between them. -/
def evalTemplate (env : Env) (acc : String) : List String → List Expr → Run String
  | part :: parts, e :: holes => do
    let v ← inner.eval env e
    evalTemplate env (acc ++ part ++ v.display) parts holes
  | parts, _ => return acc ++ String.join parts

/-- Whether the left side of a logical operator settles its value. -/
def settles (op : LogicalOp) (v : Value) : Bool :=
  match op with
  | .and => !v.truthy
  | .or => v.truthy
  | .nullish => !v.isNullish

/-- How an error names what was called. -/
def calleeName : Expr → String
  | .ident name => name
  | .member _ property _ => property
  | _ => "expression"

/-- The object of a link; a guarded link ends the chain at null and undefined. -/
def linkTarget (env : Env) (object : Expr) (guarded : Bool) : Run (Option Value) := do
  return (← inner.target env object).filter fun v => !(guarded && v.isNullish)

/-- Whether a guarded call of a method ends the chain: the object has nothing under the name. -/
def lacksMethod (target : Value) (name : String) : Bool :=
  match target with
  | .object _ fields => (fields.lookup name).all Value.isNullish
  | _ => false

/-- Calls a method. A variable that holds an array grows when items are pushed onto it. -/
def callMethod (env : Env) (object : Expr) (target : Value) (name : String) (args : List Value) :
    Run Value :=
  match object, target with
  | .ident variableName, .array _ items =>
    if name == "push" then push env variableName items args
    else method Regex.engine setting.limits (call setting inner) target name args
  | _, _ => method Regex.engine setting.limits (call setting inner) target name args

/-- The value of a chain of members, indices and calls; none when a guarded link ended it. -/
def evalChain (env : Env) : Expr → Run (Option Value)
  | .member object name guarded => do
    match ← linkTarget inner env object guarded with
    | none => return none
    | some target => some <$> property target name
  | .index object key guarded => do
    match ← linkTarget inner env object guarded with
    | none => return none
    | some target =>
      let key ← inner.eval env key
      some <$> keyed target key
  | .call (.member object name memberGuarded) args guarded => do
    match ← linkTarget inner env object memberGuarded with
    | none => return none
    | some target =>
      -- a call that is guarded asks for the member first, without its arguments
      if guarded && lacksMethod target name then return none
      else
        let args ← evalAll inner env args
        some <$> callMethod setting inner env object target name args
  | .call callee args guarded => do
    match ← evalChain env callee with
    | none => return none
    | some f =>
      if guarded && f.isNullish then return none
      else
        let args ← evalAll inner env args
        -- the arguments run before it shows that there is nothing to call
        if f.isCallable then some <$> call setting inner f args
        else Run.mistyped (.notFunction (calleeName callee))
  | e => some <$> inner.eval env e

/-- The value of an expression, after its step and its level were taken. -/
def evalBody (env : Env) : Expr → Run Value
  | .number x => return .number x
  | .text s => return .text s
  | .bool b => return .bool b
  | .null => return .null
  | .undefined => return .undefined
  | .pattern p => return .pattern env.source p
  | .ident name => lookup setting env name
  | .array items => do Run.newArray (← evalAll inner env items)
  | .object entries => do Run.newObject (← evalEntries inner env [] entries)
  | .template parts holes => return .text (← evalTemplate inner env "" parts holes)
  | .unary .kindOf (.ident name) => do
    if ← isBound setting env name then return .text (← lookup setting env name).kindOf
    else return .text "undefined"
  | .unary op e => return (← inner.eval env e).applyUnary op
  | .binary op l r => do
    let a ← inner.eval env l
    let b ← inner.eval env r
    return a.applyBinary op b
  | .logical op l r => do
    let a ← inner.eval env l
    if settles op a then return a else inner.eval env r
  | .cond test yes no => do
    if (← inner.eval env test).truthy then inner.eval env yes else inner.eval env no
  | .assign name none e => do
    let v ← inner.eval env e
    store env name v
    return v
  | .assign name (some op) e => do
    -- the old value is read before the right side runs
    let current ← lookup setting env name
    let v := current.applyBinary op (← inner.eval env e)
    store env name v
    return v
  | .update name increment before => do
    let old := (← lookup setting env name).toNumber
    let new := if increment then old + 1 else old - 1
    store env name (.number new)
    return .number (if before then new else old)
  | .function f => closure env f
  | e => return (← evalChain setting inner env e).getD .undefined

/-! ## Statements -/

/-- One round of a loop's body; a flow that comes out ends the loop. -/
def iterate (env : Env) (body : Stmt) : Run (Option Flow) := do
  match ← inner.exec env body with
  | .leave => return some .normal
  | .return v => return some (.return v)
  | .normal | .continue => return none

/-- More rounds than this no loop can take before the steps are spent. -/
def roundsLeft : Run Nat := do return setting.limits.steps - (← get).steps + 1

def spent : Run α := throw (.budgetSpent setting.limits.steps)

/-- A loop with a condition in front of each round. -/
def whileLoop (env : Env) (test : Expr) (body : Stmt) : Nat → Run Flow
  | 0 => spent setting
  | rounds + 1 => do
    if (← inner.eval env test).truthy then
      match ← iterate inner env body with
      | some flow => return flow
      | none => whileLoop env test body rounds
    else return .normal

/-- Whether a loop goes on: it does without a condition. -/
def goesOn (env : Env) : Option Expr → Run Bool
  | none => return true
  | some test => return (← inner.eval env test).truthy

def evalOption (env : Env) : Option Expr → Run Unit
  | none => return
  | some e => do
    let _ ← inner.eval env e

/-- A loop with an optional condition in front of each round and an expression behind it. -/
def countRounds (env : Env) (test update : Option Expr) (body : Stmt) : Nat → Run Flow
  | 0 => spent setting
  | rounds + 1 => do
    if ← goesOn inner env test then
      match ← iterate inner env body with
      | some flow => return flow
      | none =>
        evalOption inner env update
        countRounds env test update body rounds
    else return .normal

def countLoop (env : Env) (init : Option Stmt) (test update : Option Expr) (body : Stmt) :
    Run Flow := do
  match init with
  | some s =>
    let _ ← inner.exec env s
  | none => pure ()
  countRounds setting inner env test update body (← roundsLeft setting)

/-- The items that a loop goes through: those of an array or the characters of a text. -/
def loopItems (v : Value) : Run (List Value) :=
  match v with
  | .array _ items => pure items
  | .text s => pure (s.toList.map fun c => .text (Text.ofChar c))
  | v => Run.mistyped (.notIterable v.kind)

/-- Runs a body once for each item, each time in a scope of its own. -/
def eachRound (env : Env) (name : String) (body : Stmt) : List Value → Run Flow
  | [] => return .normal
  | item :: rest => do
    -- a closure that a round stores elsewhere keeps that round's scope
    let step ← inScope setting env env.scope [(name, item)] (fun flow => flow.bind Flow.returned)
      fun env => iterate inner env body
    match step with
    | some flow => return flow
    | none => eachRound env name body rest

def declareAll (env : Env) : List (String × Option Expr) → Run Unit
  | [] => return
  | (name, init) :: rest => do
    let v ←
      match init with
      | some e => inner.eval env e
      | none => pure .undefined
    Run.changeHeap fun h => h.declare env.scope name v
    declareAll env rest

/-- A statement, after its step and its level were taken. -/
def execBody (env : Env) : Stmt → Run Flow
  | .declare bindings => do
    declareAll inner env bindings
    return .normal
  | .function _ | .empty => return .normal
  | .cond test yes no => do
    if (← inner.eval env test).truthy then inner.exec env yes
    else
      match no with
      | some s => inner.exec env s
      | none => return .normal
  | .loop test body => do whileLoop setting inner env test body (← roundsLeft setting)
  | .countLoop init test update body =>
    inScope setting env env.scope [] Flow.returned fun env =>
      countLoop setting inner env init test update body
  | .eachLoop name items body => do
    let items ← loopItems (← inner.eval env items)
    eachRound setting inner env name body items
  | .leave => return .leave
  | .continue => return .continue
  | .return none => return .return .undefined
  | .return (some e) => return .return (← inner.eval env e)
  | .block body =>
    inScope setting env env.scope [] Flow.returned fun env => execBlock inner env body
  | .expr e => do
    let _ ← inner.eval env e
    return .normal

/-- Counts an expression or a statement while it runs. -/
def nested (r : Run α) : Run α := do
  if maxNesting ≤ (← get).nesting.now then throw (.tooNested maxNesting)
  else
    modify fun m => { m with nesting := m.nesting.up }
    let outcome ← Run.attempt r
    modify fun m => { m with nesting := m.nesting.down }
    Run.conclude outcome

/-- What can be run with a number of levels left. Without any, each attempt takes its step and then
fails. -/
def level : Nat → Evaluators
  | 0 =>
    let refuse {α : Type} : Run α := do
      Run.tick setting.limits
      throw (.tooNested maxNesting)
    ⟨fun _ _ => refuse, fun _ _ => refuse, fun _ _ => refuse⟩
  | n + 1 =>
    let inner := level n
    { eval := fun env e => do
        Run.tick setting.limits
        nested (evalBody setting inner env e)
      target := fun env e => do
        Run.tick setting.limits
        nested (evalChain setting inner env e)
      exec := fun env s => do
        Run.tick setting.limits
        nested (execBody setting inner env s) }

/-- What can be run where so much is nested already. -/
def within (nesting : Gauge) : Evaluators := level setting (maxNesting - nesting.now)

end Eval

/-! ## Whole runs -/

/-- Evaluates an expression. -/
def runExpr (setting : Setting) (env : Env) (e : Expr) : Run Value := do
  (Eval.within setting (← get).nesting).eval env e

/-- Runs the statements of a program; a return at the top gives a value. -/
def runProgram (setting : Setting) (env : Env) (program : List Stmt) : Run (Option Value) := do
  return (← Eval.execBlock (Eval.within setting (← get).nesting) env program).returned

/-- Calls a function value. -/
def runCall (setting : Setting) (callee : Value) (args : List Value) : Run Value := do
  Eval.call setting (Eval.within setting (← get).nesting) callee args

section Whole

variable (setting : Setting) (m : Machine)

theorem runExpr_apply (env : Env) (e : Expr) :
    runExpr setting env e m = (Eval.within setting m.nesting).eval env e m := rfl

theorem runProgram_apply (env : Env) (program : List Stmt) :
    runProgram setting env program m =
      (Flow.returned <$> Eval.execBlock (Eval.within setting m.nesting) env program) m := rfl

theorem runCall_apply (callee : Value) (args : List Value) :
    runCall setting callee args m =
      Eval.call setting (Eval.within setting m.nesting) callee args m := rfl

end Whole

end TraceViewer.Snippet
