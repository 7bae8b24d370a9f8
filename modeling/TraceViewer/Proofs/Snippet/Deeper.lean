import TraceViewer.Proofs.Snippet.Comparison
import TraceViewer.Proofs.Snippet.Running

/-!
# The same code further in

Code that runs further in, with more steps spent and more levels taken, does what it does further
out, unless it meets the end of the steps or of the levels.
-/

namespace TraceViewer.Snippet

variable {α β : Type} {S : Setting}

/-! ## 1. Runs further in -/

/-- Whether an error says that no step or no level was left. -/
def Error.isOfDescent : Error → Bool
  | .budgetSpent _ | .tooNested _ => true
  | _ => false

/-- A machine with the variables of another one, with more steps spent and more levels taken. -/
structure Machine.Deeper (m m' : Machine) : Prop where
  heap : m'.heap = m.heap
  escapes : m'.escapes = m.escapes
  depth : m'.depth.now = m.depth.now
  steps : m.steps ≤ m'.steps
  nesting : m.nesting.now ≤ m'.nesting.now

/-- How a run ends, and how it ends further in: alike, unless no step or no level was left there. -/
inductive EndsDeeper :
    EStateM.Result Error Machine α → EStateM.Result Error Machine α → Prop
  | ok (a : α) {m m' : Machine} (h : m.Deeper m') : EndsDeeper (.ok a m) (.ok a m')
  | error (e : Error) {m m' : Machine} (h : m.Deeper m') : EndsDeeper (.error e m) (.error e m')
  | cut {e : Error} (he : e.isOfDescent) (x : EStateM.Result Error Machine α) (m' : Machine) :
      EndsDeeper x (.error e m')

/-- Runs of which the second ends as the first one does, further in. -/
def RunDeeper (r r' : Run α) : Prop := ∀ m m', m.Deeper m' → EndsDeeper (r m) (r' m')

theorem Machine.Deeper.refl (m : Machine) : m.Deeper m :=
  ⟨rfl, rfl, rfl, Nat.le_refl _, Nat.le_refl _⟩

theorem Machine.Deeper.entered {m m' : Machine} (h : m.Deeper m') : m.Deeper m'.entered :=
  { h with
    steps := Nat.le_succ_of_le h.steps
    nesting := Nat.le_succ_of_le h.nesting }

theorem Machine.Deeper.entered_both {m m' : Machine} (h : m.Deeper m') :
    m.entered.Deeper m'.entered :=
  { h with
    steps := Nat.succ_le_succ h.steps
    nesting := Nat.succ_le_succ h.nesting }

theorem Machine.Deeper.left_both {m m' : Machine} (h : m.Deeper m') : m.left.Deeper m'.left :=
  { h with nesting := Nat.sub_le_sub_right h.nesting 1 }

/-- Outcomes that are alike stay so with runs behind them. -/
theorem EndsDeeper.bind {r r' : Run α} {f f' : α → Run β} {m m' : Machine}
    (h : EndsDeeper (r m) (r' m')) (hf : ∀ a, RunDeeper (f a) (f' a)) :
    EndsDeeper ((r >>= f) m) ((r' >>= f') m') := by
  show EndsDeeper (EStateM.bind r f m) (EStateM.bind r' f' m')
  unfold EStateM.bind
  generalize r m = x at h
  generalize r' m' = y at h
  cases h with
  | ok a hn => exact hf a _ _ hn
  | error e hn => exact .error e hn
  | cut he x n => exact .cut he _ n

namespace RunDeeper

variable {r r' : Run α}

protected theorem pure (a : α) : RunDeeper (pure a : Run α) (pure a) := fun _ _ h => .ok a h

protected theorem throw (e : Error) : RunDeeper (throw e : Run α) (throw e) :=
  fun _ _ h => .error e h

protected theorem bind {f f' : α → Run β} (h : RunDeeper r r')
    (hf : ∀ a, RunDeeper (f a) (f' a)) : RunDeeper (r >>= f) (r' >>= f') :=
  fun m m' hm => (h m m' hm).bind hf

theorem onHeap (f : Heap → α × Heap) : RunDeeper (Run.onHeap f) (Run.onHeap f) := by
  intro m m' h
  unfold Run.onHeap
  rw [h.heap]
  exact .ok _ { h with heap := rfl }

theorem noteEscape (escapes : Bool) :
    RunDeeper (Run.noteEscape escapes) (Run.noteEscape escapes) := by
  intro m m' h
  cases escapes with
  | false => exact .ok () h
  | true => exact .ok () { h with escapes := congrArg (· + 1) h.escapes }

theorem tick (S : Setting) : RunDeeper (Run.tick S.limits) (Run.tick S.limits) := by
  intro m m' h
  have hsteps := h.steps
  by_cases hspent : S.limits.steps ≤ m'.steps
  · rw [tick_of_le hspent]
    exact .cut rfl _ _
  · rw [tick_of_lt (Nat.lt_of_not_le hspent), tick_of_lt (by omega)]
    exact .ok () { h with steps := Nat.succ_le_succ hsteps }

theorem leaving {f : Machine → Machine} (hf : ∀ m m', m.Deeper m' → (f m).Deeper (f m'))
    {x y : EStateM.Result Error Machine α} (h : EndsDeeper x y) :
    EndsDeeper (Snippet.leaving f x) (Snippet.leaving f y) := by
  cases h with
  | ok a h => exact .ok a (hf _ _ h)
  | error e h => exact .error e (hf _ _ h)
  | cut he x n => exact .cut he _ _

theorem counted (h : RunDeeper r r') : RunDeeper (Eval.counted S r) (Eval.counted S r') := by
  intro m m' hm
  rw [counted_apply, counted_apply, hm.depth]
  split
  · exact .error _ hm
  · apply leaving
    · intro n n' hn
      exact { hn with depth := congrArg (· - 1) hn.depth }
    · apply h
      exact { hm with depth := congrArg (· + 1) hm.depth }

theorem nested (h : RunDeeper r r') : RunDeeper (Eval.nested r) (Eval.nested r') := by
  intro m m' hm
  have hnesting := hm.nesting
  rw [nested_apply, nested_apply]
  by_cases hfull : maxNesting ≤ m'.nesting.now
  · rw [if_pos hfull]
    exact .cut rfl _ _
  · rw [if_neg hfull, if_neg (by omega)]
    apply leaving
    · exact fun _ _ hn => hn.left_both
    · apply h
      exact { hm with nesting := Nat.succ_le_succ hnesting }

theorem inScope (env : Env) (parent : Nat) (vars : List (String × Value))
    (handedOn : α → Option Value) {body body' : Env → Run α}
    (h : ∀ inside, RunDeeper (body inside) (body' inside)) :
    RunDeeper (Eval.inScope S env parent vars handedOn body)
      (Eval.inScope S env parent vars handedOn body') := by
  intro m m' hm
  -- whether the scope is emptied depends on escapes alone
  have hrelease {n n' : Machine} (hn : n.Deeper n') (scope escapes : Nat) (out : Option Value) :
      (n.released S scope escapes out).Deeper (n'.released S scope escapes out) := by
    unfold Machine.released Machine.mayRelease
    rw [hn.heap]
    exact { hn with heap := by rw [hn.escapes] }
  have hbody := h { env with scope := m.heap.scopes.size }
    { m with heap := (m.heap.addScope (some parent) vars).2 }
    { m' with heap := (m.heap.addScope (some parent) vars).2 } { hm with heap := rfl }
  rw [inScope_apply, inScope_apply, hm.heap]
  generalize body _ _ = x at hbody ⊢
  generalize body' _ _ = y at hbody ⊢
  rw [hm.escapes]
  cases hbody with
  | ok a hn => exact .ok a (hrelease hn _ _ _)
  | error e hn => exact .error e (hrelease hn _ _ _)
  | cut he x n => exact .cut he _ _

/-- Further in no more rounds are left, and a loop without rounds left is out of steps. -/
theorem allRounds {goes goes' : Run Bool} {round round' : Run (Option Flow)}
    (hgoes : RunDeeper goes goes') (hround : RunDeeper round round') :
    RunDeeper (Eval.allRounds S goes round) (Eval.allRounds S goes' round') := by
  intro m m' hm
  have hle : S.limits.steps - m'.steps + 1 ≤ S.limits.steps - m.steps + 1 := by
    have := hm.steps
    omega
  exact Eval.rounds_rel RunDeeper .pure .bind (fun _ _ _ _ => .cut rfl _ _) hgoes hround hle m m' hm

end RunDeeper

/-- All that can be run does further in what it does further out. -/
def goingDeeper (S : Setting) : Comparison S S where
  globals := S.globals_self
  Rel _ _ r r' := RunDeeper r r'
  weaken h := h
  pure := .pure
  throw e _ := .throw e
  bind h hf := .bind h hf
  onHeap _ := .onHeap _
  noteEscape := .noteEscape
  tick := .tick S
  counted h := .counted h
  nested h := .nested h
  inScope env parent vars handedOn _ _ h := .inScope env parent vars handedOn h
  allRounds hgoes hround := .allRounds hgoes hround

theorem goingDeeper_level (S : Setting) {n n' : Nat} (hn : n' ≤ n) :
    (goingDeeper S).Evaluates (Eval.level S n) (Eval.level S n') := by
  induction n' generalizing n with
  | zero =>
    -- where no level is left, nothing is said about the run that has some
    have hrefuse {α : Type} (r : Run α) :
        RunDeeper r (do Run.tick S.limits; throw (.tooNested maxNesting)) := by
      intro m m' _
      by_cases hspent : S.limits.steps ≤ m'.steps
      · rw [Run.bind_error (tick_of_le hspent)]
        exact .cut rfl _ _
      · rw [Run.bind_ok (tick_of_lt (Nat.lt_of_not_le hspent))]
        exact .cut rfl _ _
    exact ⟨fun _ _ => hrefuse _, fun _ _ => hrefuse _, fun _ _ => hrefuse _⟩
  | succ n' ih =>
    obtain ⟨n, rfl⟩ := Nat.exists_eq_add_one.mpr (Nat.lt_of_lt_of_le (Nat.succ_pos n') hn)
    have hin := ih (Nat.le_of_succ_le_succ hn)
    exact ⟨fun env e => .bind (.tick S) fun _ => .nested (hin.evalBody env e),
      fun env e => .bind (.tick S) fun _ => .nested (hin.evalChain env e),
      fun env s => .bind (.tick S) fun _ => .nested (hin.execBody env s)⟩

theorem goingDeeper_within (S : Setting) {m m' : Machine} (hm : m.Deeper m') :
    (goingDeeper S).Evaluates (Eval.within S m.nesting) (Eval.within S m'.nesting) :=
  goingDeeper_level S (Nat.sub_le_sub_left hm.nesting maxNesting)

end TraceViewer.Snippet
