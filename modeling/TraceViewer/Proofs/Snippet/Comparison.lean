import TraceViewer.Proofs.Snippet.Release

/-!
# Comparing runs

The evaluators are built from a dozen pieces: values and errors, sequences of runs, steps, changes
of the heap, counted calls and levels, scopes and loops.  A `Comparison` is a relation between runs
under two settings that each of these pieces respects.  `Comparison.level` says that all that can be
run respects it then, at every level of nesting.
-/

namespace TraceViewer.Snippet

/-! ## 1. Loops -/

namespace Eval

variable (setting : Setting)

/-- A loop that asks in front of each round whether it goes on, and which a flow that comes out of a
round ends. -/
def rounds (goes : Run Bool) (round : Run (Option Flow)) : Nat → Run Flow
  | 0 => spent setting
  | n + 1 => do
    if ← goes then
      match ← round with
      | some flow => return flow
      | none => rounds goes round n
    else return .normal

/-- A loop with as many rounds as there may be. -/
def allRounds (goes : Run Bool) (round : Run (Option Flow)) : Run Flow := do
  rounds setting goes round (← roundsLeft setting)

/-- What goes through sequences and holds of any run beside one that is out of steps holds of two
loops, the second with no more rounds left. -/
theorem rounds_rel {S S' : Setting} (R : {α : Type} → Run α → Run α → Prop)
    (hpure : ∀ {α : Type} (a : α), R (pure a : Run α) (pure a))
    (hbind : ∀ {α β : Type} {r r' : Run α} {f f' : α → Run β}, R r r' → (∀ a, R (f a) (f' a)) →
      R (r >>= f) (r' >>= f'))
    (hspent : ∀ r : Run Flow, R r (spent S')) {goes goes' : Run Bool}
    {round round' : Run (Option Flow)} (hgoes : R goes goes') (hround : R round round') {n n' : Nat}
    (hn : n' ≤ n) :
    R (rounds S goes round n) (rounds S' goes' round' n') := by
  induction n' generalizing n with
  | zero => exact hspent _
  | succ n' ih =>
    obtain ⟨n, rfl⟩ := Nat.exists_eq_add_one.mpr (Nat.lt_of_lt_of_le (Nat.succ_pos n') hn)
    refine hbind hgoes fun goesOn => ?_
    cases goesOn with
    | false => exact hpure _
    | true =>
      refine hbind hround fun step => ?_
      cases step with
      | some flow => exact hpure _
      | none => exact ih (Nat.le_of_succ_le_succ hn)

variable (inner : Evaluators) (env : Env) (body : Stmt)

theorem whileLoop_eq_rounds (test : Expr) (n : Nat) :
    whileLoop setting inner env test body n =
      rounds setting (goesOn inner env (some test)) (iterate inner env body) n := by
  induction n with
  | zero => rfl
  | succ n ih =>
    have hgoes : goesOn inner env (some test) = inner.eval env test >>= fun v => pure v.truthy :=
      rfl
    rw [whileLoop, ih, rounds, hgoes, bind_assoc]
    apply bind_congr
    intro v
    exact (pure_bind v.truthy fun goes => if goes then _ else _).symm

/-- One round of a loop with an expression behind its body. -/
def countRound (update : Option Expr) : Run (Option Flow) := do
  match ← iterate inner env body with
  | some flow => return some flow
  | none =>
    evalOption inner env update
    return none

theorem countRounds_eq_rounds (test update : Option Expr) (n : Nat) :
    countRounds setting inner env test update body n =
      rounds setting (goesOn inner env test) (countRound inner env body update) n := by
  induction n with
  | zero => rfl
  | succ n ih =>
    rw [countRounds, ih, rounds]
    apply bind_congr
    intro goes
    cases goes with
    | false => rfl
    | true =>
      -- the update goes behind the body, into the round
      simp only [if_true, countRound, bind_assoc]
      apply bind_congr
      intro step
      cases step <;> simp only [bind_assoc, pure_bind]

end Eval

/-! ## 2. What a comparison respects -/

/-- Whether an error comes from the limits of a setting. -/
def Error.isOfLimit : Error → Bool
  | .budgetSpent _ | .tooManyCalls _ => true
  | _ => false

/-- What running code and its clients do with a heap. -/
inductive Heap.Operation : {α : Type} → (Heap → α × Heap) → Prop
  | mark : Heap.Operation Heap.mark
  | source : Heap.Operation Heap.source
  | ofJson (j : Json) : Heap.Operation fun h => h.ofJson j
  | addTop (vars : List (String × Value)) : Heap.Operation fun h => h.addScope none vars
  | lookup {α : Type} (f : Option Value → α) (scope : Nat) (name : String) :
      Heap.Operation fun h => (f (h.lookup? scope name), h)
  | assign (scope : Nat) (name : String) (v : Value) :
      Heap.Operation fun h =>
        ((h.assign? scope name v).isSome, (h.assign? scope name v).getD h)
  | declare (scope : Nat) (name : String) (v : Value) :
      Heap.Operation fun h => ((), h.declare scope name v)

theorem Eval.assign_eq_onHeap (env : Env) (name : String) (v : Value) :
    Eval.assign env name v = Run.onHeap fun h =>
      ((h.assign? env.scope name v).isSome, (h.assign? env.scope name v).getD h) := by
  funext m
  rw [SideBySide.assign_apply]
  unfold Run.onHeap Heap.assign?
  dsimp only
  cases m.heap.find? env.scope name <;> rfl

/-- A relation between runs under two settings of the same names that goes through everything that
the evaluators are built from.  `Rel true` is for runs that are known to take a step when they end
normally. -/
structure Comparison (S S' : Setting) where
  globals : S'.globals = S.globals
  Rel : Bool → {α : Type} → Run α → Run α → Prop
  weaken : ∀ {α : Type} {r r' : Run α}, Rel true r r' → Rel false r r'
  protected pure : ∀ {α : Type} (a : α), Rel false (pure a : Run α) (pure a)
  protected throw : ∀ {α : Type} (e : Error), e.isOfLimit = false →
    Rel false (throw e : Run α) (throw e)
  protected bind : ∀ {α β : Type} {b : Bool} {r r' : Run α} {f f' : α → Run β}, Rel b r r' →
    (∀ a, Rel false (f a) (f' a)) → Rel b (r >>= f) (r' >>= f')
  onHeap : ∀ {α : Type} {f : Heap → α × Heap}, Heap.Operation f →
    Rel false (Run.onHeap f) (Run.onHeap f)
  noteEscape : ∀ escapes, Rel false (Run.noteEscape escapes) (Run.noteEscape escapes)
  tick : Rel true (Run.tick S.limits) (Run.tick S'.limits)
  counted : ∀ {α : Type} {r r' : Run α}, Rel false r r' →
    Rel false (Eval.counted S r) (Eval.counted S' r')
  nested : ∀ {α : Type} {r r' : Run α}, Rel false r r' → Rel false (Eval.nested r) (Eval.nested r')
  inScope : ∀ {α : Type} (env : Env) (parent : Nat) (vars : List (String × Value))
    (handedOn : α → Option Value) {body body' : Env → Run α},
    (∀ inside, Rel false (body inside) (body' inside)) →
    Rel false (Eval.inScope S env parent vars handedOn body)
      (Eval.inScope S' env parent vars handedOn body')
  allRounds : ∀ {goes goes' : Run Bool} {round round' : Run (Option Flow)}, Rel false goes goes' →
    Rel true round round' →
    Rel false (Eval.allRounds S goes round) (Eval.allRounds S' goes' round')

/-- Under one setting all runs share the same names. -/
theorem Setting.globals_self (S : Setting) : S.globals = S.globals := rfl

/-- A comparison that also goes through looking at how much is nested, as whole runs do. -/
structure WholeComparison (S S' : Setting) extends Comparison S S' where
  fromNesting : ∀ {α : Type} {r r' : Nat → Run α}, (∀ n, Rel false (r n) (r' n)) →
    Rel false (do r (← get).nesting.now) (do r' (← get).nesting.now)

namespace Comparison

variable {S S' : Setting} (C : Comparison S S') {α β : Type}

/-- One run after another, where it does not matter whether they take a step. -/
theorem seq {b : Bool} {r r' : Run α} {f f' : α → Run β} (h : C.Rel b r r')
    (hf : ∀ a, C.Rel false (f a) (f' a)) : C.Rel false (r >>= f) (r' >>= f') := by
  cases b with
  | false => exact C.bind h hf
  | true => exact C.bind (C.weaken h) hf

theorem map {b : Bool} {r r' : Run α} (h : C.Rel b r r') (f : α → β) :
    C.Rel false (f <$> r) (f <$> r') := by
  rw [map_eq_pure_bind, map_eq_pure_bind]
  exact C.seq h fun a => C.pure (f a)

theorem mistyped (fault : TypeFault) :
    C.Rel false (Run.mistyped fault : Run α) (Run.mistyped fault) := C.throw _ rfl

theorem typed (outcome : Except TypeFault α) :
    C.Rel false (Run.typed outcome) (Run.typed outcome) := by
  cases outcome with
  | ok a => exact C.pure a
  | error fault => exact C.mistyped fault

theorem newArray (items : List Value) : C.Rel false (Run.newArray items) (Run.newArray items) :=
  C.seq (C.onHeap .mark) fun _ => C.pure _

theorem newObject (fields : Fields Value) :
    C.Rel false (Run.newObject fields) (Run.newObject fields) :=
  C.seq (C.onHeap .mark) fun _ => C.pure _

/-! ## 3. Properties and methods -/

theorem property (target : Value) (name : String) :
    C.Rel false (property target name) (property target name) := by
  unfold Snippet.property
  split
  case h_1 | h_2 => exact C.mistyped _
  case h_4 =>
    split
    · exact C.pure _
    · split <;> exact C.pure _
  case h_6 => repeat' split
              all_goals exact C.pure _
  all_goals exact C.pure _

theorem keyed (target key : Value) : C.Rel false (keyed target key) (keyed target key) := by
  unfold Snippet.keyed
  split
  case h_3 => exact C.property target _
  all_goals split <;> exact C.pure _

theorem firstMatch (searcher : Regex.Searcher) (text : List Char) :
    C.Rel false (firstMatch searcher text) (firstMatch searcher text) := by
  unfold Snippet.firstMatch
  split
  · exact C.pure _
  · exact C.newArray _

theorem allMatches (searcher : Regex.Searcher) (text : List Char) :
    C.Rel false (allMatches searcher text) (allMatches searcher text) := by
  unfold Snippet.allMatches
  split
  · exact C.pure _
  · exact C.newArray _

section Methods

variable {library : Regex.Library} {call call' : Call}
  (hcall : ∀ f args, C.Rel false (call f args) (call' f args))
include hcall

theorem replaceFrom (searcher : Regex.Searcher) (text : List Char) (replacement : Value)
    (ms : List Regex.Match) : ∀ last pieces,
    C.Rel false (replaceFrom call searcher text replacement last pieces ms)
      (replaceFrom call' searcher text replacement last pieces ms) := by
  induction ms with
  | nil => exact fun _ _ => C.pure _
  | cons m rest ih =>
    intro last pieces
    unfold Snippet.replaceFrom replacementFor
    refine C.seq (b := false) ?_ fun replaced => ih _ _
    split
    · exact C.seq (hcall _ _) fun _ => C.pure _
    · exact C.pure _

theorem replaceMatches (text : List Char) (pattern replacement : Value) (all : Bool) :
    C.Rel false (replaceMatches library call text pattern replacement all)
      (replaceMatches library call' text pattern replacement all) :=
  C.seq (C.typed _) fun _ => C.map (C.replaceFrom hcall _ text replacement _ 0 []) textOf

theorem textMethod (s name : String) (args : List Value) :
    C.Rel false (textMethod library call s name args) (textMethod library call' s name args) := by
  unfold Snippet.textMethod
  dsimp only
  split
  · refine C.seq (C.typed _) fun searcher => ?_
    split
    · exact C.allMatches _ _
    · exact C.firstMatch _ _
  · exact C.newArray _
  case h_16 => exact C.replaceMatches hcall _ _ _ _
  case h_17 => exact C.replaceMatches hcall _ _ _ _
  case h_18 => exact C.mistyped _
  all_goals first
    | exact C.pure _
    | split <;> exact C.pure _

theorem onItem (f item : Value) (n : Nat) :
    C.Rel true (onItem S.limits call f item n) (onItem S'.limits call' f item n) :=
  C.bind C.tick fun _ => hcall _ _

theorem mapItems (f : Value) (items : List Value) : ∀ acc n,
    C.Rel false (mapItems S.limits call f acc n items)
      (mapItems S'.limits call' f acc n items) := by
  induction items with
  | nil => exact fun _ _ => C.pure _
  | cons item rest ih => exact fun acc n => C.seq (C.onItem hcall f item n) fun _ => ih _ _

theorem filterItems (f : Value) (items : List Value) : ∀ acc n,
    C.Rel false (filterItems S.limits call f acc n items)
      (filterItems S'.limits call' f acc n items) := by
  induction items with
  | nil => exact fun _ _ => C.pure _
  | cons item rest ih => exact fun acc n => C.seq (C.onItem hcall f item n) fun _ => ih _ _

theorem findItem (f : Value) (wanted : Bool) (items : List Value) : ∀ n,
    C.Rel false (findItem S.limits call f wanted n items)
      (findItem S'.limits call' f wanted n items) := by
  induction items with
  | nil => exact fun _ => C.pure _
  | cons item rest ih =>
    intro n
    refine C.seq (C.onItem hcall f item n) fun v => ?_
    split
    · exact C.pure _
    · exact ih _

theorem foldItems (f : Value) (items : List Value) : ∀ acc n,
    C.Rel false (foldItems S.limits call f acc n items)
      (foldItems S'.limits call' f acc n items) := by
  induction items with
  | nil => exact fun _ _ => C.pure _
  | cons item rest ih =>
    exact fun acc n => C.seq C.tick fun _ => C.seq (hcall _ _) fun _ => ih _ _

theorem arrayMethod (target : Value) (items : List Value) (name : String) (args : List Value) :
    C.Rel false (arrayMethod S.limits call target items name args)
      (arrayMethod S'.limits call' target items name args) := by
  unfold Snippet.arrayMethod
  dsimp only
  split
  · exact C.mistyped _
  · split
    · exact C.seq (C.mapItems hcall _ items [] 0) fun _ => C.newArray _
    · exact C.seq (C.filterItems hcall _ items [] 0) fun _ => C.newArray _
    · exact C.seq (C.findItem hcall _ true items 0) fun _ => C.pure _
    · exact C.seq (C.findItem hcall _ false items 0) fun _ => C.pure _
    · refine C.seq (C.findItem hcall _ true items 0) fun found => ?_
      cases found <;> exact C.pure _
    · refine C.seq (C.findItem hcall _ true items 0) fun found => ?_
      cases found <;> exact C.pure _
    · split
      · exact C.foldItems hcall _ _ _ 0
      · exact C.foldItems hcall _ _ _ 1
      · exact C.mistyped _
    · exact C.pure _
    · split <;> exact C.pure _
    · exact C.pure _
    · exact C.newArray _
    · exact C.newArray _
    · exact C.pure _
    · exact C.pure _
    · exact C.mistyped _

theorem builtinMethod (target : Value) (name : String) (args : List Value) :
    C.Rel false (builtinMethod library S.limits call target name args)
      (builtinMethod library S'.limits call' target name args) := by
  unfold Snippet.builtinMethod
  split
  · exact C.textMethod hcall _ name args
  · exact C.arrayMethod hcall _ _ name args
  · split
    · exact C.pure _
    · split
      · exact C.pure _
      · exact C.mistyped _
  · split
    · exact C.pure _
    · exact C.mistyped _
  · dsimp only
    split
    · exact C.pure _
    · split
      · exact C.firstMatch _ _
      · exact C.mistyped _
  · exact C.mistyped _

theorem method (target : Value) (name : String) (args : List Value) :
    C.Rel false (method library S.limits call target name args)
      (method library S'.limits call' target name args) := by
  unfold Snippet.method
  split
  · split
    · split
      · exact hcall _ _
      · exact C.mistyped _
    · exact C.mistyped _
  · exact C.mistyped _
  · exact C.mistyped _
  · exact C.builtinMethod hcall target name args

end Methods

/-! ## 4. Variables -/

theorem globalValue {name : String} {r : Run Value} (h : globalValue? name = some r) :
    C.Rel false r r := by
  unfold globalValue? at h
  split at h <;> cases h <;> first | exact C.pure _ | exact C.newObject _

theorem lookup (env : Env) (name : String) :
    C.Rel false (Eval.lookup S env name) (Eval.lookup S' env name) := by
  unfold Eval.lookup
  rw [C.globals]
  refine C.seq (C.onHeap (.lookup id env.scope name)) fun found => ?_
  cases found with
  | some v => exact C.pure v
  | none =>
    dsimp only
    split
    · exact C.pure _
    · split
      · next h => exact C.globalValue h
      · exact C.throw _ rfl

theorem isBound (env : Env) (name : String) :
    C.Rel false (Eval.isBound S env name) (Eval.isBound S' env name) := by
  unfold Eval.isBound
  rw [C.globals]
  exact C.seq (C.onHeap (.lookup Option.isSome env.scope name)) fun _ => C.pure _

theorem assign (env : Env) (name : String) (v : Value) :
    C.Rel false (Eval.assign env name v) (Eval.assign env name v) := by
  rw [Eval.assign_eq_onHeap]
  exact C.onHeap (.assign env.scope name v)

theorem declare (scope : Nat) (name : String) (v : Value) :
    C.Rel false (Run.changeHeap fun h => h.declare scope name v)
      (Run.changeHeap fun h => h.declare scope name v) := C.onHeap (.declare scope name v)

theorem store (env : Env) (name : String) (v : Value) :
    C.Rel false (Eval.store env name v) (Eval.store env name v) := by
  unfold Eval.store
  refine C.seq (C.noteEscape _) fun _ => C.seq (C.assign env name v) fun stored => ?_
  cases stored with
  | true => exact C.pure _
  | false => exact C.throw _ rfl

theorem push (env : Env) (name : String) (items args : List Value) :
    C.Rel false (Eval.push env name items args) (Eval.push env name items args) := by
  unfold Eval.push
  refine C.seq (C.assign env name _) fun stored => ?_
  cases stored with
  | true =>
    exact C.seq (C.noteEscape _) fun _ => C.seq (C.newArray _) fun _ =>
      C.seq (C.assign env name _) fun _ => C.pure _
  | false => exact C.mistyped _

theorem closure (env : Env) (f : Function) :
    C.Rel false (Eval.closure env f) (Eval.closure env f) :=
  C.seq (C.onHeap .mark) fun _ => C.pure _

theorem hoist (env : Env) (body : List Stmt) :
    C.Rel false (Eval.hoist env body) (Eval.hoist env body) := by
  induction body with
  | nil => exact C.pure _
  | cons s rest ih =>
    cases s with
    | function f =>
      unfold Eval.hoist
      dsimp only
      split
      · exact C.seq (C.closure env f) fun _ => C.seq (C.declare _ _ _) fun _ => ih
      · exact ih
    | _ => exact ih

/-! ## 5. Calls and expressions -/

/-- Evaluators that give comparable runs, each of which takes a step. -/
structure Evaluates (inner inner' : Evaluators) : Prop where
  eval : ∀ env e, C.Rel true (inner.eval env e) (inner'.eval env e)
  target : ∀ env e, C.Rel true (inner.target env e) (inner'.target env e)
  exec : ∀ env s, C.Rel true (inner.exec env s) (inner'.exec env s)

variable {C} {inner inner' : Evaluators} (h : C.Evaluates inner inner')
include h

namespace Evaluates

theorem execAll (env : Env) (body : List Stmt) :
    C.Rel false (Eval.execAll inner env body) (Eval.execAll inner' env body) := by
  induction body with
  | nil => exact C.pure _
  | cons s rest ih =>
    refine C.seq (h.exec env s) fun flow => ?_
    cases flow with
    | normal => exact ih
    | _ => exact C.pure _

theorem execBlock (env : Env) (body : List Stmt) :
    C.Rel false (Eval.execBlock inner env body) (Eval.execBlock inner' env body) :=
  C.seq (C.hoist env body) fun _ => h.execAll env body

theorem runBody (env : Env) (body : Body) :
    C.Rel false (Eval.runBody inner env body) (Eval.runBody inner' env body) := by
  cases body with
  | expr e => exact C.weaken (h.eval env e)
  | block body =>
    refine C.seq (h.execBlock env body) fun flow => ?_
    cases flow <;> exact C.pure _

theorem call (callee : Value) (args : List Value) :
    C.Rel false (Eval.call S inner callee args) (Eval.call S' inner' callee args) := by
  unfold Eval.call
  split
  · exact C.counted (C.inScope _ _ _ _ fun env => h.runBody env _)
  · exact C.pure _
  · exact C.mistyped _

theorem evalAll (env : Env) (es : List Expr) :
    C.Rel false (Eval.evalAll inner env es) (Eval.evalAll inner' env es) := by
  induction es with
  | nil => exact C.pure _
  | cons e rest ih => exact C.seq (h.eval env e) fun _ => C.seq ih fun _ => C.pure _

theorem evalEntries (env : Env) (entries : List (String × Expr)) : ∀ acc,
    C.Rel false (Eval.evalEntries inner env acc entries)
      (Eval.evalEntries inner' env acc entries) := by
  induction entries with
  | nil => exact fun _ => C.pure _
  | cons entry rest ih => exact fun _ => C.seq (h.eval env entry.2) fun _ => ih _

theorem evalTemplate (env : Env) (parts : List String) : ∀ acc holes,
    C.Rel false (Eval.evalTemplate inner env acc parts holes)
      (Eval.evalTemplate inner' env acc parts holes) := by
  induction parts with
  | nil =>
    intro _ holes
    cases holes <;> exact C.pure _
  | cons part parts ih =>
    intro _ holes
    cases holes with
    | nil => exact C.pure _
    | cons e holes => exact C.seq (h.eval env e) fun _ => ih _ _

theorem linkTarget (env : Env) (object : Expr) (guarded : Bool) :
    C.Rel false (Eval.linkTarget inner env object guarded)
      (Eval.linkTarget inner' env object guarded) :=
  C.seq (h.target env object) fun _ => C.pure _

theorem callMethod (env : Env) (object : Expr) (target : Value) (name : String)
    (args : List Value) :
    C.Rel false (Eval.callMethod S inner env object target name args)
      (Eval.callMethod S' inner' env object target name args) := by
  unfold Eval.callMethod
  split
  · split
    · exact C.push env _ _ args
    · exact C.method h.call _ name args
  · exact C.method h.call target name args

theorem evalChain (env : Env) (e : Expr) :
    C.Rel false (Eval.evalChain S inner env e) (Eval.evalChain S' inner' env e) := by
  induction e using Eval.evalChain.induct with
  | case1 object name guarded =>
    rw [Eval.evalChain, Eval.evalChain]
    refine C.seq (h.linkTarget env object guarded) fun target => ?_
    cases target with
    | none => exact C.pure _
    | some target => exact C.map (C.property target name) some
  | case2 object key guarded =>
    rw [Eval.evalChain, Eval.evalChain]
    refine C.seq (h.linkTarget env object guarded) fun target => ?_
    cases target with
    | none => exact C.pure _
    | some target => exact C.seq (h.eval env key) fun _ => C.map (C.keyed target _) some
  | case3 object name memberGuarded args guarded =>
    rw [Eval.evalChain, Eval.evalChain]
    refine C.seq (h.linkTarget env object memberGuarded) fun target => ?_
    cases target with
    | none => exact C.pure _
    | some target =>
      dsimp only
      split
      · exact C.pure _
      · exact C.seq (h.evalAll env args) fun _ =>
          C.map (h.callMethod env object target name _) some
  -- a callee that is no member of anything is evaluated as a chain of its own
  | case4 callee args guarded hcallee ih =>
    rw [Eval.evalChain.eq_4 _ _ _ _ _ _ hcallee, Eval.evalChain.eq_4 _ _ _ _ _ _ hcallee]
    refine C.seq ih fun f => ?_
    cases f with
    | none => exact C.pure _
    | some f =>
      dsimp only
      split
      · exact C.pure _
      · refine C.seq (h.evalAll env args) fun _ => ?_
        split
        · exact C.map (h.call f _) some
        · exact C.mistyped _
  | case5 e hmember hindex hmethod hcall =>
    rw [Eval.evalChain.eq_5 _ _ _ _ hmember hindex hmethod hcall,
      Eval.evalChain.eq_5 _ _ _ _ hmember hindex hmethod hcall]
    exact C.map (h.eval env e) some

theorem evalBody (env : Env) (e : Expr) :
    C.Rel false (Eval.evalBody S inner env e) (Eval.evalBody S' inner' env e) := by
  have hunary (op : UnaryOp) (e : Expr) :
      C.Rel false (do return (← inner.eval env e).applyUnary op)
        (do return (← inner'.eval env e).applyUnary op) :=
    C.seq (h.eval env e) fun _ => C.pure _
  cases e with
  | number _ | text _ | bool _ | null | undefined | pattern _ => exact C.pure _
  | ident name => exact C.lookup env name
  | array items => exact C.seq (h.evalAll env items) fun _ => C.newArray _
  | object entries => exact C.seq (h.evalEntries env entries []) fun _ => C.newObject _
  | template parts holes => exact C.seq (h.evalTemplate env parts "" holes) fun _ => C.pure _
  | unary op e =>
    cases op with
    | kindOf =>
      cases e with
      -- asking for the kind of a name that is not bound is no error
      | ident name =>
        refine C.seq (C.isBound env name) fun bound => ?_
        cases bound with
        | true => exact C.seq (C.lookup env name) fun _ => C.pure _
        | false => exact C.pure _
      | _ => exact hunary _ _
    | _ => exact hunary _ _
  | binary op l r => exact C.seq (h.eval env l) fun _ => C.seq (h.eval env r) fun _ => C.pure _
  | logical op l r =>
    refine C.seq (h.eval env l) fun a => ?_
    split
    · exact C.pure _
    · exact C.weaken (h.eval env r)
  | cond test yes no =>
    refine C.seq (h.eval env test) fun a => ?_
    split
    · exact C.weaken (h.eval env yes)
    · exact C.weaken (h.eval env no)
  | assign name op e =>
    cases op with
    | none =>
      exact C.seq (h.eval env e) fun _ => C.seq (C.store env name _) fun _ => C.pure _
    | some op =>
      exact C.seq (C.lookup env name) fun _ => C.seq (h.eval env e) fun _ =>
        C.seq (C.store env name _) fun _ => C.pure _
  | update name increment before =>
    exact C.seq (C.lookup env name) fun _ => C.seq (C.store env name _) fun _ => C.pure _
  | function f => exact C.closure env f
  | member _ _ _ | index _ _ _ | call _ _ _ =>
    exact C.seq (h.evalChain env _) fun _ => C.pure _

/-! ## 6. Statements -/

theorem iterate (env : Env) (body : Stmt) :
    C.Rel true (Eval.iterate inner env body) (Eval.iterate inner' env body) := by
  refine C.bind (h.exec env body) fun flow => ?_
  cases flow <;> exact C.pure _

theorem goesOn (env : Env) (test : Option Expr) :
    C.Rel false (Eval.goesOn inner env test) (Eval.goesOn inner' env test) := by
  cases test with
  | none => exact C.pure _
  | some test => exact C.seq (h.eval env test) fun _ => C.pure _

theorem countRound (env : Env) (body : Stmt) (update : Option Expr) :
    C.Rel true (Eval.countRound inner env body update)
      (Eval.countRound inner' env body update) := by
  refine C.bind (h.iterate env body) fun step => ?_
  cases step with
  | some flow => exact C.pure _
  | none =>
    cases update with
    | none => exact C.seq (C.pure _) fun _ => C.pure _
    | some e => exact C.seq (C.seq (h.eval env e) fun _ => C.pure _) fun _ => C.pure _

theorem whileLoop (env : Env) (test : Expr) (body : Stmt) :
    C.Rel false (do Eval.whileLoop S inner env test body (← Eval.roundsLeft S))
      (do Eval.whileLoop S' inner' env test body (← Eval.roundsLeft S')) := by
  simp only [Eval.whileLoop_eq_rounds]
  exact C.allRounds (h.goesOn env _) (h.iterate env body)

theorem countLoop (env : Env) (init : Option Stmt) (test update : Option Expr) (body : Stmt) :
    C.Rel false (Eval.countLoop S inner env init test update body)
      (Eval.countLoop S' inner' env init test update body) := by
  unfold Eval.countLoop
  simp only [Eval.countRounds_eq_rounds]
  have hrounds := C.allRounds (h.goesOn env test) (h.countRound env body update)
  cases init with
  | none => exact hrounds
  | some s => exact C.seq (h.exec env s) fun _ => hrounds

theorem eachRound (env : Env) (name : String) (body : Stmt) (items : List Value) :
    C.Rel false (Eval.eachRound S inner env name body items)
      (Eval.eachRound S' inner' env name body items) := by
  induction items with
  | nil => exact C.pure _
  | cons item rest ih =>
    refine C.seq (C.inScope env _ _ _ fun inside => C.weaken (h.iterate inside body)) fun step => ?_
    cases step with
    | some flow => exact C.pure _
    | none => exact ih

theorem declareAll (env : Env) (bindings : List (String × Option Expr)) :
    C.Rel false (Eval.declareAll inner env bindings) (Eval.declareAll inner' env bindings) := by
  induction bindings with
  | nil => exact C.pure _
  | cons binding rest ih =>
    obtain ⟨name, init⟩ := binding
    cases init with
    | none => exact C.seq (C.pure _) fun _ => C.seq (C.declare _ _ _) fun _ => ih
    | some e => exact C.seq (h.eval env e) fun _ => C.seq (C.declare _ _ _) fun _ => ih

theorem execBody (env : Env) (s : Stmt) :
    C.Rel false (Eval.execBody S inner env s) (Eval.execBody S' inner' env s) := by
  cases s with
  | declare bindings => exact C.seq (h.declareAll env bindings) fun _ => C.pure _
  | function _ | empty | leave | «continue» => exact C.pure _
  | cond test yes no =>
    refine C.seq (h.eval env test) fun a => ?_
    split
    · exact C.weaken (h.exec env yes)
    · cases no with
      | some s => exact C.weaken (h.exec env s)
      | none => exact C.pure _
  | loop test body => exact h.whileLoop env test body
  | countLoop init test update body =>
    exact C.inScope env _ _ _ fun inside => h.countLoop inside init test update body
  | eachLoop name items body =>
    refine C.seq (h.eval env items) fun v => C.seq (b := false) ?_ fun items => ?_
    · unfold Eval.loopItems
      split
      · exact C.pure _
      · exact C.pure _
      · exact C.mistyped _
    · exact h.eachRound env name body items
  | «return» value =>
    cases value with
    | none => exact C.pure _
    | some e => exact C.seq (h.eval env e) fun _ => C.pure _
  | block body => exact C.inScope env _ _ _ fun inside => h.execBlock inside body
  | expr e => exact C.seq (h.eval env e) fun _ => C.pure _

end Evaluates

/-! ## 7. All levels and whole runs -/

omit h in
/-- All that can be run is comparable, whatever the number of levels that are left. -/
theorem level (C : Comparison S S') (n : Nat) :
    C.Evaluates (Eval.level S n) (Eval.level S' n) := by
  induction n with
  | zero =>
    -- without a level left everything is refused, after the step that it takes
    have hrefuse {α : Type} :
        C.Rel true (do Run.tick S.limits; throw (.tooNested maxNesting) : Run α)
          (do Run.tick S'.limits; throw (.tooNested maxNesting)) :=
      C.bind C.tick fun _ => C.throw _ rfl
    exact ⟨fun _ _ => hrefuse, fun _ _ => hrefuse, fun _ _ => hrefuse⟩
  | succ n ih =>
    exact ⟨fun env e => C.bind C.tick fun _ => C.nested (ih.evalBody env e),
      fun env e => C.bind C.tick fun _ => C.nested (ih.evalChain env e),
      fun env s => C.bind C.tick fun _ => C.nested (ih.execBody env s)⟩

end Comparison

namespace WholeComparison

variable {S S' : Setting} (C : WholeComparison S S')

theorem runExpr (env : Env) (e : Expr) :
    C.Rel false (runExpr S env e) (runExpr S' env e) := by
  have hrun (n : Nat) : C.Rel false ((Eval.level S (maxNesting - n)).eval env e)
      ((Eval.level S' (maxNesting - n)).eval env e) := C.weaken ((C.level _).eval env e)
  exact C.fromNesting hrun

theorem runProgram (env : Env) (program : List Stmt) :
    C.Rel false (runProgram S env program) (runProgram S' env program) := by
  have hrun (n : Nat) :
      C.Rel false
        (do return (← Eval.execBlock (Eval.level S (maxNesting - n)) env program).returned)
        (do return (← Eval.execBlock (Eval.level S' (maxNesting - n)) env program).returned) :=
    C.seq ((C.level _).execBlock env program) fun _ => C.pure _
  exact C.fromNesting hrun

theorem runCall (callee : Value) (args : List Value) :
    C.Rel false (runCall S callee args) (runCall S' callee args) := by
  have hrun (n : Nat) : C.Rel false (Eval.call S (Eval.level S (maxNesting - n)) callee args)
      (Eval.call S' (Eval.level S' (maxNesting - n)) callee args) := (C.level _).call callee args
  exact C.fromNesting hrun

/-- Whatever a client asks for is comparable. -/
theorem perform (q : Request) :
    C.Rel false (q.perform S) (q.perform S') := by
  cases q with
  | openTop vars =>
    have hscope (source : Nat) :
        C.Rel false (Run.openScope vars source) (Run.openScope vars source) :=
      C.seq (C.onHeap (.addTop vars)) fun _ => C.pure _
    exact C.seq (C.seq (C.onHeap .source) hscope) fun _ => C.pure _
  | document j => exact C.seq (C.onHeap (.ofJson j)) fun _ => C.pure _
  | eval env e => exact C.seq (C.runExpr env e) fun _ => C.pure _
  | run env program => exact C.seq (C.runProgram env program) fun _ => C.pure _
  | call callee args => exact C.seq (C.runCall callee args) fun _ => C.pure _

end WholeComparison

end TraceViewer.Snippet
