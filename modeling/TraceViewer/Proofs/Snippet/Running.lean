import TraceViewer.Proofs.Snippet.SideBySide

/-!
# Running code step by step

An expression that gave a value gave it after its step and its level were taken, and each run that
was part of it gave a value as well.  `entered` and `left` are the machines on the way into an
expression and out of it.
-/

namespace TraceViewer.Snippet

variable {α β : Type} {S : Setting} {env : Env} {m n : Machine}

/-! ## 1. Runs in sequence -/

theorem Run.bind_ok {r : Run α} {a : α} {m' : Machine} (h : r m = .ok a m')
    (g : α → Run β) : (r >>= g) m = g a m' := by
  show EStateM.bind r g m = g a m'
  unfold EStateM.bind
  rw [h]

theorem Run.bind_error {r : Run α} {e : Error} {m' : Machine}
    (h : r m = .error e m') (g : α → Run β) : (r >>= g) m = .error e m' := by
  show EStateM.bind r g m = .error e m'
  unfold EStateM.bind
  rw [h]

/-- Runs in sequence that gave a value gave one each. -/
theorem Run.eq_ok_of_bind {r : Run α} {f : α → Run β} {b : β} (h : (r >>= f) m = .ok b n) :
    ∃ a m', r m = .ok a m' ∧ f a m' = .ok b n := by
  cases hr : r m with
  | ok a m' => exact ⟨a, m', rfl, Run.bind_ok hr f ▸ h⟩
  | error e m' =>
    rw [Run.bind_error hr] at h
    cases h

theorem Run.eq_ok_of_map {r : Run α} {f : α → β} {b : β} (h : (f <$> r) m = .ok b n) :
    ∃ a, r m = .ok a n ∧ b = f a := by
  rw [map_eq_pure_bind] at h
  obtain ⟨a, m', hr, hb⟩ := Run.eq_ok_of_bind h
  cases hb
  exact ⟨a, hr, rfl⟩

/-- What a run gave, if it did not fail. -/
def Run.gave? (r : Run α) (m : Machine) : Option α :=
  match r m with
  | .ok a _ => some a
  | .error _ _ => none

theorem Run.eq_ok_of_gave? {r : Run α} {p : α → Bool} (h : (r.gave? m).any p = true) :
    ∃ a n, r m = .ok a n ∧ p a = true := by
  unfold Run.gave? at h
  cases hr : r m with
  | ok a n =>
    rw [hr] at h
    exact ⟨a, n, rfl, h⟩
  | error e n =>
    rw [hr] at h
    cases h

/-! ## 2. Into an expression and out of it -/

namespace Machine

/-- The machine after the step and the level of an expression were taken. -/
def entered (m : Machine) : Machine := { m with steps := m.steps + 1, nesting := m.nesting.up }

/-- The machine after the level of an expression was given back. -/
def left (m : Machine) : Machine := { m with nesting := m.nesting.down }

@[simp] theorem heap_entered (m : Machine) : m.entered.heap = m.heap := rfl

@[simp] theorem heap_left (m : Machine) : m.left.heap = m.heap := rfl

end Machine

/-- What a run gives that takes a step and a level of its own: it fails for want of either, or runs
between the two. -/
def stepped (S : Setting) (r : Run α) (m : Machine) : EStateM.Result Error Machine α :=
  if S.limits.steps ≤ m.steps then
    .error (.budgetSpent S.limits.steps) { m with steps := m.steps + 1 }
  else if maxNesting ≤ m.nesting.now then
    .error (.tooNested maxNesting) { m with steps := m.steps + 1 }
  else leaving Machine.left (r m.entered)

theorem tick_of_lt (h : m.steps < S.limits.steps) :
    Run.tick S.limits m = .ok () { m with steps := m.steps + 1 } := by
  unfold Run.tick
  exact if_neg (Nat.not_lt_of_le h)

theorem tick_of_le (h : S.limits.steps ≤ m.steps) :
    Run.tick S.limits m = .error (.budgetSpent S.limits.steps) { m with steps := m.steps + 1 } := by
  unfold Run.tick
  exact if_pos (Nat.lt_succ_of_le h)

theorem nested_of_tick (r : Run α) :
    (do Run.tick S.limits; Eval.nested r : Run α) m = stepped S r m := by
  unfold stepped
  by_cases hsteps : S.limits.steps ≤ m.steps
  · rw [Run.bind_error (tick_of_le hsteps), if_pos hsteps]
  · rw [Run.bind_ok (tick_of_lt (Nat.lt_of_not_le hsteps)), if_neg hsteps, nested_apply]
    rfl

/-- Without a level left a run is refused as it is by its nesting. -/
theorem refused_of_tick (r : Run α) (hm : maxNesting ≤ m.nesting.now) :
    (do Run.tick S.limits; throw (.tooNested maxNesting) : Run α) m = stepped S r m := by
  unfold stepped
  by_cases hsteps : S.limits.steps ≤ m.steps
  · rw [Run.bind_error (tick_of_le hsteps), if_pos hsteps]
  · rw [Run.bind_ok (tick_of_lt (Nat.lt_of_not_le hsteps)), if_neg hsteps, if_pos hm]
    rfl

/-- What takes a step and a level is `stepped` at every level of nesting. -/
theorem within_apply (run body : Evaluators → Run α)
    (hzero : run (Eval.level S 0) = do Run.tick S.limits; throw (.tooNested maxNesting))
    (hsucc : ∀ n, run (Eval.level S (n + 1)) =
      do Run.tick S.limits; Eval.nested (body (Eval.level S n))) (m : Machine) :
    run (Eval.within S m.nesting) m = stepped S (body (Eval.within S m.entered.nesting)) m := by
  by_cases hm : maxNesting ≤ m.nesting.now
  · have hlevel : Eval.within S m.nesting = Eval.level S 0 := by
      rw [Eval.within, Nat.sub_eq_zero_of_le hm]
    rw [hlevel, hzero]
    exact refused_of_tick _ hm
  · have hk : maxNesting - m.nesting.now = maxNesting - (m.nesting.now + 1) + 1 := by omega
    have hlevel : Eval.within S m.nesting =
        Eval.level S (maxNesting - (m.nesting.now + 1) + 1) := by rw [Eval.within, hk]
    rw [hlevel, hsucc]
    exact nested_of_tick _

/-- How much is nested decides what can be run, and not how much has been. -/
theorem within_congr {g g' : Gauge} (h : g.now = g'.now) : Eval.within S g = Eval.within S g' := by
  rw [Eval.within, Eval.within, h]

theorem eval_apply (S : Setting) (env : Env) (e : Expr) (m : Machine) :
    (Eval.within S m.nesting).eval env e m =
      stepped S (Eval.evalBody S (Eval.within S m.entered.nesting) env e) m :=
  within_apply (·.eval env e) (Eval.evalBody S · env e) rfl (fun _ => rfl) m

theorem target_apply (S : Setting) (env : Env) (e : Expr) (m : Machine) :
    (Eval.within S m.nesting).target env e m =
      stepped S (Eval.evalChain S (Eval.within S m.entered.nesting) env e) m :=
  within_apply (·.target env e) (Eval.evalChain S · env e) rfl (fun _ => rfl) m

theorem exec_apply (S : Setting) (env : Env) (s : Stmt) (m : Machine) :
    (Eval.within S m.nesting).exec env s m =
      stepped S (Eval.execBody S (Eval.within S m.entered.nesting) env s) m :=
  within_apply (·.exec env s) (Eval.execBody S · env s) rfl (fun _ => rfl) m

theorem stepped_congr {r r' : Run α} (h : r m.entered = r' m.entered) :
    stepped S r m = stepped S r' m := by
  unfold stepped
  rw [h]

theorem eq_ok_of_stepped {r : Run α} {a : α} (h : stepped S r m = .ok a n) :
    ∃ n', r m.entered = .ok a n' ∧ n = n'.left := by
  unfold stepped at h
  split at h
  · cases h
  · split at h
    · cases h
    · cases hr : r m.entered with
      | ok b n' =>
        rw [hr] at h
        cases h
        exact ⟨n', rfl, rfl⟩
      | error e n' =>
        rw [hr] at h
        cases h

end TraceViewer.Snippet
