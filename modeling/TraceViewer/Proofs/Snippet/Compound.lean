import TraceViewer.Proofs.Snippet.Counters
import TraceViewer.Proofs.Snippet.Deeper

/-!
# Compound assignments

`x += e` reads the variable, evaluates `e` and stores what the operator gives, and so does
`x = x + (e)`.  The second one does the first two a level further in and takes two steps more for
it, and `runExpr_compound` says that nothing else is different: what `e` does to the variables, `x`
included, it does on both sides after `x` was read and before it is stored.
-/

namespace TraceViewer.Snippet

variable {α : Type} {S : Setting} {env : Env} {m m' : Machine}

/-! ## 1. One level further in -/

/-- A run that gives its levels back, and one that ends as it does a level further in, end alike
when that level is taken and given back around the second. -/
theorem EndsDeeper.stepped_right {r r' : Run α} {b b' : Bool} (hm : m.Deeper m')
    (h : EndsDeeper (r m) (r' m'.entered)) (hr : Accounted S b m (r m))
    (hr' : Accounted S b' m'.entered (r' m'.entered)) : EndsDeeper (r m) (stepped S r' m') := by
  have hleft {n n' : Machine} (hn : n.Deeper n') (hback : n.nesting.now = m.nesting.now)
      (hback' : n'.nesting.now = m'.nesting.now + 1) : n.Deeper n'.left := by
    have hnesting : n.nesting.now ≤ n'.nesting.now - 1 := by
      have := hm.nesting
      omega
    exact { hn with nesting := hnesting }
  unfold stepped
  split
  · exact .cut rfl _ _
  · split
    · exact .cut rfl _ _
    · generalize r m = x at h hr
      generalize r' m'.entered = y at h hr'
      cases h with
      | ok a hn => exact .ok a (hleft hn hr.nesting hr'.nesting)
      | error e hn => exact .error e (hleft hn hr.nesting hr'.nesting)
      | cut he x n => exact .cut he _ _

/-- Runs that end alike do so with a step and a level around each of them. -/
theorem EndsDeeper.stepped_both {r r' : Run α} (h : EndsDeeper (r m.entered) (r' m.entered)) :
    EndsDeeper (stepped S r m) (stepped S r' m) := by
  have hm : m.Deeper m := .refl m
  unfold stepped
  split
  · exact .error _ { hm with steps := Nat.le_refl _ }
  · split
    · exact .error _ { hm with steps := Nat.le_refl _ }
    · exact RunDeeper.leaving (fun _ _ hn => hn.left_both) h

/-- Reading a variable, and evaluating its name as an expression. -/
theorem endsDeeper_ident (S : Setting) (env : Env) (name : String) (hm : m.Deeper m') :
    EndsDeeper (Eval.lookup S env name m)
      ((Eval.within S m'.nesting).eval env (.ident name) m') := by
  rw [eval_apply]
  exact .stepped_right hm ((goingDeeper S).lookup env name _ _ hm.entered)
    ((accounting S).lookup env name _) ((accounting S).lookup env name _)

/-! ## 2. Reading, evaluating and storing -/

/-- What a compound assignment stores: the value of the operator for the variable, which is read
first, and an expression. -/
def combined (S : Setting) (inner : Evaluators) (env : Env) (name : String) (op : BinaryOp)
    (e : Expr) : Run Value := do
  let current ← Eval.lookup S env name
  return current.applyBinary op (← inner.eval env e)

/-- Stores a value in a variable, and gives it. -/
def storing (env : Env) (name : String) (v : Value) : Run Value := do
  Eval.store env name v
  return v

theorem evalBody_compound (S : Setting) (inner : Evaluators) (env : Env) (name : String)
    (op : BinaryOp) (e : Expr) :
    Eval.evalBody S inner env (.assign name (some op) e) =
      combined S inner env name op e >>= storing env name := by
  unfold combined
  simp only [bind_assoc, pure_bind]
  rfl

theorem evalBody_assign (S : Setting) (inner : Evaluators) (env : Env) (name : String)
    (e : Expr) :
    Eval.evalBody S inner env (.assign name none e) = inner.eval env e >>= storing env name := rfl

theorem accounted_combined {g : Gauge} (name : String) (op : BinaryOp) (e : Expr) :
    Accounted S false m (combined S (Eval.within S g) env name op e m) :=
  (accounting S).seq ((accounting S).lookup env name)
    (fun _ => (accounting S).seq (((accounting S).level _).eval env e)
      fun _ => (accounting S).pure _) m

/-- The operator gives in an expression of its own what it gives in a compound assignment. -/
theorem endsDeeper_binary (S : Setting) (env : Env) (name : String) (op : BinaryOp) (e : Expr)
    (m : Machine) :
    EndsDeeper (combined S (Eval.within S m.nesting) env name op e m)
      ((Eval.within S m.nesting).eval env (.binary op (.ident name) e) m) := by
  have hm : m.Deeper m := .refl m
  have hin : m.Deeper m.entered := hm.entered
  rw [eval_apply]
  refine .stepped_right hm ?_ (accounted_combined name op e)
    (((accounting S).level _).evalBody env (.binary op (.ident name) e) _)
  -- the name is an expression there, and `e` stands as far in as the operator does
  exact (endsDeeper_ident S env name hin).bind fun current =>
    RunDeeper.bind ((goingDeeper_within S hin).eval env e) fun v => .pure _

/-- `x op= e` and `x = x op (e)` give the same value or the same error and leave the same variables,
whatever `e` does and wherever `x` is bound, unless the second runs out of steps or levels. -/
theorem runExpr_compound (S : Setting) (env : Env) (name : String) (op : BinaryOp) (e : Expr)
    (m : Machine) :
    EndsDeeper (runExpr S env (.assign name (some op) e) m)
      (runExpr S env (.assign name none (.binary op (.ident name) e)) m) := by
  rw [runExpr_apply, runExpr_apply, eval_apply, eval_apply, evalBody_compound, evalBody_assign]
  refine .stepped_both ((endsDeeper_binary S env name op e m.entered).bind fun v => ?_)
  exact RunDeeper.bind ((goingDeeper S).store env name v) fun _ => .pure v

end TraceViewer.Snippet
