import TraceViewer.Proofs.Snippet.Comparison

/-!
# Counters are given back

Calls, expressions and statements count while they are under way.  However a run ends, it gives back
all that it counted, on the way it never counted more than its limits allow, and it ran out of steps
exactly when its error says so.  So an interpreter can be used again after a failure: what it does
next depends on the failed run only in the steps that it took and the variables that it left.
-/

namespace TraceViewer.Snippet

variable {α β : Type}

/-! ## 1. What a run leaves of the counters -/

/-- The machine that an outcome leaves. -/
def machineAfter : EStateM.Result Error Machine α → Machine
  | .ok _ m => m
  | .error _ m => m

def Error.isBudget : Error → Bool
  | .budgetSpent _ => true
  | _ => false

/-- Whether a run ended for want of steps. -/
def ranOut : EStateM.Result Error Machine α → Bool
  | .ok _ _ => false
  | .error e _ => e.isBudget

@[simp] theorem machineAfter_leaving (f : Machine → Machine)
    (x : EStateM.Result Error Machine α) : machineAfter (leaving f x) = f (machineAfter x) := by
  cases x <;> rfl

@[simp] theorem ranOut_leaving (f : Machine → Machine) (x : EStateM.Result Error Machine α) :
    ranOut (leaving f x) = ranOut x := by
  cases x <;> rfl

/-- What a run from a machine leaves of the counters.  `takesStep` is for runs that are known to
take a step when they end normally. -/
structure Accounted (S : Setting) (takesStep : Bool) (m : Machine)
    (x : EStateM.Result Error Machine α) : Prop where
  depth : (machineAfter x).depth.now = m.depth.now
  nesting : (machineAfter x).nesting.now = m.nesting.now
  depthPeak : (machineAfter x).depth.peak ≤ max m.depth.peak S.limits.depth
  nestingPeak : (machineAfter x).nesting.peak ≤ max m.nesting.peak maxNesting
  steps : m.steps ≤ (machineAfter x).steps
  within : m.steps ≤ S.limits.steps → ranOut x = false → (machineAfter x).steps ≤ S.limits.steps
  spent : m.steps ≤ S.limits.steps → ranOut x = true →
    (machineAfter x).steps = S.limits.steps + 1
  took : takesStep = true → ∀ a n, x = .ok a n → m.steps < n.steps

namespace Accounted

variable {S : Setting} {m : Machine}

/-- An outcome that leaves the counters as they were. -/
theorem of_same {x : EStateM.Result Error Machine α} (hdepth : (machineAfter x).depth = m.depth)
    (hnesting : (machineAfter x).nesting = m.nesting) (hsteps : (machineAfter x).steps = m.steps)
    (hx : ranOut x = false) : Accounted S false m x where
  depth := by rw [hdepth]
  nesting := by rw [hnesting]
  depthPeak := by rw [hdepth]; exact Nat.le_max_left _ _
  nestingPeak := by rw [hnesting]; exact Nat.le_max_left _ _
  steps := Nat.le_of_eq hsteps.symm
  within h _ := by rw [hsteps]; exact h
  spent _ h := by rw [hx] at h; cases h
  took h := by cases h

theorem weaken {b : Bool} {x : EStateM.Result Error Machine α} (h : Accounted S b m x) :
    Accounted S false m x :=
  { h with took := fun hb => by cases hb }

theorem throw {e : Error} (he : e.isOfLimit = false) (m : Machine) :
    Accounted S false m (.error e m : EStateM.Result Error Machine α) := by
  -- only a step can run out of steps
  have hranOut : e.isBudget = false := by
    cases e with
    | budgetSpent _ => cases he
    | _ => rfl
  exact of_same rfl rfl rfl hranOut

/-- A run that ended normally, followed by another one from where it ended. -/
theorem after {b : Bool} {a : α} {n : Machine} {y : EStateM.Result Error Machine β}
    (h : Accounted S b m (.ok a n)) (hy : Accounted S false n y) : Accounted S b m y := by
  have hwithin (hm : m.steps ≤ S.limits.steps) : n.steps ≤ S.limits.steps := h.within hm rfl
  have hdepth : n.depth.peak ≤ _ := h.depthPeak
  have hnesting : n.nesting.peak ≤ _ := h.nestingPeak
  have hdepth' := hy.depthPeak
  have hnesting' := hy.nestingPeak
  exact
    { depth := hy.depth.trans h.depth
      nesting := hy.nesting.trans h.nesting
      depthPeak := by omega
      nestingPeak := by omega
      steps := Nat.le_trans h.steps hy.steps
      within := fun hm => hy.within (hwithin hm)
      spent := fun hm => hy.spent (hwithin hm)
      took := fun hb c k hk => by
        have htook := h.took hb a n rfl
        have hsteps := hy.steps
        rw [hk] at hsteps
        exact Nat.lt_of_lt_of_le htook hsteps }

theorem bind {b : Bool} {r : Run α} {f : α → Run β} (h : Accounted S b m (r m))
    (hf : ∀ a n, r m = .ok a n → Accounted S false n (f a n)) :
    Accounted S b m ((r >>= f) m) := by
  show Accounted S b m (EStateM.bind r f m)
  unfold EStateM.bind
  cases hr : r m with
  | ok a n =>
    rw [hr] at h
    exact h.after (hf a n hr)
  | error e n =>
    rw [hr] at h
    -- a run that fails ends the sequence with what it left
    exact { h with took := fun _ _ _ hk => by cases hk }

theorem tick (S : Setting) (m : Machine) : Accounted S true m (Run.tick S.limits m) := by
  unfold Run.tick
  dsimp only
  by_cases hspent : S.limits.steps < m.steps + 1
  · rw [if_pos hspent]
    -- the step that is too many is counted, so the count ends one above the limit
    refine ⟨rfl, rfl, Nat.le_max_left _ _, Nat.le_max_left _ _, Nat.le_succ _, ?_, ?_, ?_⟩
    · intro _ hx
      cases hx
    · intro hm _
      show m.steps + 1 = _
      omega
    · intro _ _ _ hk
      cases hk
  · rw [if_neg hspent]
    refine ⟨rfl, rfl, Nat.le_max_left _ _, Nat.le_max_left _ _, Nat.le_succ _, ?_, ?_, ?_⟩
    · intro _ _
      show m.steps + 1 ≤ _
      omega
    · intro _ hx
      cases hx
    · intro _ _ _ hk
      cases hk
      exact Nat.lt_succ_self _

theorem counted {r : Run α} (h : ∀ m, Accounted S false m (r m)) (m : Machine) :
    Accounted S false m (Eval.counted S r m) := by
  rw [counted_apply]
  by_cases hfull : S.limits.depth ≤ m.depth.now
  · rw [if_pos hfull]
    exact of_same rfl rfl rfl rfl
  · rw [if_neg hfull]
    -- the run is accounted for from one call more, which is given back however it ends
    have hr := h { m with depth := m.depth.up }
    have hdepth := hr.depth
    have hpeak := hr.depthPeak
    simp only [Gauge.now_up] at hdepth
    simp only [Gauge.peak_up] at hpeak
    constructor
    all_goals try simp only [machineAfter_leaving, ranOut_leaving, Gauge.now_down, Gauge.peak_down]
    · omega
    · exact hr.nesting
    · omega
    · exact hr.nestingPeak
    · exact hr.steps
    · exact hr.within
    · exact hr.spent
    · intro hb
      cases hb

theorem nested {r : Run α} (h : ∀ m, Accounted S false m (r m)) (m : Machine) :
    Accounted S false m (Eval.nested r m) := by
  rw [nested_apply]
  by_cases hfull : maxNesting ≤ m.nesting.now
  · rw [if_pos hfull]
    exact of_same rfl rfl rfl rfl
  · rw [if_neg hfull]
    -- as with calls, for levels
    have hr := h { m with nesting := m.nesting.up }
    have hnesting := hr.nesting
    have hpeak := hr.nestingPeak
    simp only [Gauge.now_up] at hnesting
    simp only [Gauge.peak_up] at hpeak
    constructor
    all_goals try simp only [machineAfter_leaving, ranOut_leaving, Gauge.now_down, Gauge.peak_down]
    · exact hr.depth
    · omega
    · exact hr.depthPeak
    · omega
    · exact hr.steps
    · exact hr.within
    · exact hr.spent
    · intro hb
      cases hb

theorem inScope (env : Env) (parent : Nat) (vars : List (String × Value))
    (handedOn : α → Option Value) {body : Env → Run α}
    (h : ∀ inside m, Accounted S false m (body inside m)) (m : Machine) :
    Accounted S false m (Eval.inScope S env parent vars handedOn body m) := by
  have hbody := h { env with scope := m.heap.scopes.size }
    { m with heap := (m.heap.addScope (some parent) vars).2 }
  rw [inScope_apply]
  generalize body _ _ = x at hbody ⊢
  cases x with
  | ok a n => exact { hbody with took := fun hb => by cases hb }
  | error e n => exact { hbody with took := fun hb => by cases hb }

/-- A loop is cut off by its rounds only where its steps are spent already, as every round takes a
step. -/
theorem rounds {goes : Run Bool} {round : Run (Option Flow)}
    (hgoes : ∀ m, Accounted S false m (goes m)) (hround : ∀ m, Accounted S true m (round m)) :
    ∀ (n : Nat) (m : Machine), (m.steps ≤ S.limits.steps → S.limits.steps < m.steps + n) →
      Accounted S false m (Eval.rounds S goes round n m) := by
  intro n
  induction n with
  | zero =>
    intro m hn
    refine ⟨rfl, rfl, Nat.le_max_left _ _, Nat.le_max_left _ _, Nat.le_refl _, ?_, ?_, ?_⟩
    · intro _ hx
      cases hx
    · intro hm _
      -- were steps left, a round would be left as well
      have := hn hm
      omega
    · intro hb
      cases hb
  | succ n ih =>
    intro m hn
    apply bind (hgoes m)
    intro goesOn m₁ hm₁
    cases goesOn with
    | false => exact of_same rfl rfl rfl rfl
    | true =>
      apply (bind (hround m₁) ?_).weaken
      intro step m₂ hm₂
      cases step with
      | some flow => exact of_same rfl rfl rfl rfl
      | none =>
        apply ih
        -- the round took a step, so one round less is still enough
        have hsteps := (hgoes m).steps
        have htook := (hround m₁).took rfl _ _ hm₂
        rw [hm₁] at hsteps
        simp only [machineAfter] at hsteps
        omega

theorem allRounds {goes : Run Bool} {round : Run (Option Flow)}
    (hgoes : ∀ m, Accounted S false m (goes m)) (hround : ∀ m, Accounted S true m (round m))
    (m : Machine) : Accounted S false m (Eval.allRounds S goes round m) := by
  show Accounted S false m (Eval.rounds S goes round (S.limits.steps - m.steps + 1) m)
  apply rounds hgoes hround
  omega

end Accounted

/-- Accounting for the counters goes through all that can be run. -/
def accounting (S : Setting) : WholeComparison S S where
  globals := rfl
  Rel b _ r _ := ∀ m, Accounted S b m (r m)
  weaken h m := (h m).weaken
  pure _ _ := .of_same rfl rfl rfl rfl
  throw _ he m := .throw he m
  bind h hf m := .bind (h m) fun a n _ => hf a n
  onHeap _ _ := .of_same rfl rfl rfl rfl
  noteEscape escapes m := by cases escapes <;> exact .of_same rfl rfl rfl rfl
  tick := .tick S
  counted h := .counted h
  nested h := .nested h
  inScope env parent vars handedOn _ _ h := .inScope env parent vars handedOn h
  allRounds hgoes hround := .allRounds hgoes hround
  fromNesting h m := h m.nesting.now m

/-! ## 2. Peaks are only looked at -/

/-- Machines that differ at most in how high their counts have been. -/
structure Machine.SameNow (m m' : Machine) : Prop where
  heap : m.heap = m'.heap
  steps : m.steps = m'.steps
  depth : m.depth.now = m'.depth.now
  nesting : m.nesting.now = m'.nesting.now
  escapes : m.escapes = m'.escapes

/-- The same value or error, with machines that are the same now. -/
inductive SameEnd : EStateM.Result Error Machine α → EStateM.Result Error Machine α → Prop
  | ok (a : α) {m m' : Machine} (h : m.SameNow m') : SameEnd (.ok a m) (.ok a m')
  | error (e : Error) {m m' : Machine} (h : m.SameNow m') : SameEnd (.error e m) (.error e m')

/-- Runs that end the same from machines that are the same now. -/
def RunSame (r r' : Run α) : Prop := ∀ m m', m.SameNow m' → SameEnd (r m) (r' m')

namespace RunSame

variable {S : Setting} {r r' : Run α}

theorem pure (a : α) : RunSame (pure a : Run α) (pure a) := fun _ _ h => .ok a h

theorem bind {f f' : α → Run β} (h : RunSame r r') (hf : ∀ a, RunSame (f a) (f' a)) :
    RunSame (r >>= f) (r' >>= f') := by
  intro m m' hm
  have hr := h m m' hm
  show SameEnd (EStateM.bind r f m) (EStateM.bind r' f' m')
  unfold EStateM.bind
  generalize r m = x at hr
  generalize r' m' = y at hr
  cases hr with
  | ok a hn => exact hf a _ _ hn
  | error e hn => exact .error e hn

theorem onHeap (f : Heap → α × Heap) : RunSame (Run.onHeap f) (Run.onHeap f) := by
  intro m m' h
  unfold Run.onHeap
  rw [h.heap]
  exact .ok _ { h with heap := rfl }

theorem noteEscape (escapes : Bool) :
    RunSame (Run.noteEscape escapes) (Run.noteEscape escapes) := by
  intro m m' h
  cases escapes with
  | false => exact .ok () h
  | true => exact .ok () { h with escapes := congrArg (· + 1) h.escapes }

theorem tick (limits : Limits) : RunSame (Run.tick limits) (Run.tick limits) := by
  intro m m' h
  have hn : Machine.SameNow { m with steps := m.steps + 1 } { m' with steps := m'.steps + 1 } :=
    { h with steps := congrArg (· + 1) h.steps }
  unfold Run.tick
  dsimp only
  rw [h.steps] at hn ⊢
  split
  · exact .error _ hn
  · exact .ok () hn

theorem leaving {f : Machine → Machine} (hf : ∀ m m', m.SameNow m' → (f m).SameNow (f m'))
    {x y : EStateM.Result Error Machine α} (h : SameEnd x y) :
    SameEnd (Snippet.leaving f x) (Snippet.leaving f y) := by
  cases h with
  | ok a h => exact .ok a (hf _ _ h)
  | error e h => exact .error e (hf _ _ h)

theorem counted (h : RunSame r r') : RunSame (Eval.counted S r) (Eval.counted S r') := by
  intro m m' hm
  rw [counted_apply, counted_apply, hm.depth]
  split
  · exact .error _ hm
  · apply leaving
    · intro n n' hn
      exact { hn with depth := congrArg (· - 1) hn.depth }
    · apply h
      exact { hm with depth := congrArg (· + 1) hm.depth }

theorem nested (h : RunSame r r') : RunSame (Eval.nested r) (Eval.nested r') := by
  intro m m' hm
  rw [nested_apply, nested_apply, hm.nesting]
  split
  · exact .error _ hm
  · apply leaving
    · intro n n' hn
      exact { hn with nesting := congrArg (· - 1) hn.nesting }
    · apply h
      exact { hm with nesting := congrArg (· + 1) hm.nesting }

theorem inScope (env : Env) (parent : Nat) (vars : List (String × Value))
    (handedOn : α → Option Value) {body body' : Env → Run α}
    (h : ∀ inside, RunSame (body inside) (body' inside)) :
    RunSame (Eval.inScope S env parent vars handedOn body)
      (Eval.inScope S env parent vars handedOn body') := by
  intro m m' hm
  -- whether the scope is emptied depends on escapes alone
  have hrelease {n n' : Machine} (hn : n.SameNow n') (scope escapes : Nat) (out : Option Value) :
      (n.released S scope escapes out).SameNow (n'.released S scope escapes out) := by
    unfold Machine.released Machine.mayRelease
    rw [hn.heap]
    exact { hn with heap := by rw [hn.escapes] }
  have hbody := h { env with scope := m'.heap.scopes.size }
    { m with heap := (m'.heap.addScope (some parent) vars).2 }
    { m' with heap := (m'.heap.addScope (some parent) vars).2 } { hm with heap := rfl }
  rw [inScope_apply, inScope_apply, hm.heap]
  generalize body _ _ = x at hbody ⊢
  generalize body' _ _ = y at hbody ⊢
  rw [hm.escapes]
  cases hbody with
  | ok a hn => exact .ok a (hrelease hn _ _ _)
  | error e hn => exact .error e (hrelease hn _ _ _)

theorem rounds {goes goes' : Run Bool} {round round' : Run (Option Flow)}
    (hgoes : RunSame goes goes') (hround : RunSame round round') (n : Nat) :
    RunSame (Eval.rounds S goes round n) (Eval.rounds S goes' round' n) := by
  induction n with
  | zero => exact fun _ _ h => .error _ h
  | succ n ih =>
    apply bind hgoes
    intro goes
    cases goes with
    | false => exact pure _
    | true =>
      apply bind hround
      intro step
      cases step with
      | some flow => exact pure _
      | none => exact ih

theorem allRounds {goes goes' : Run Bool} {round round' : Run (Option Flow)}
    (hgoes : RunSame goes goes') (hround : RunSame round round') :
    RunSame (Eval.allRounds S goes round) (Eval.allRounds S goes' round') := by
  intro m m' hm
  show SameEnd (Eval.rounds S goes round (S.limits.steps - m.steps + 1) m)
    (Eval.rounds S goes' round' (S.limits.steps - m'.steps + 1) m')
  rw [hm.steps]
  exact rounds hgoes hround _ m m' hm

end RunSame

/-- Nothing that can be run looks at a peak. -/
def ignoringPeaks (S : Setting) : WholeComparison S S where
  globals := rfl
  Rel _ _ r r' := RunSame r r'
  weaken h := h
  pure := .pure
  throw e _ _ _ h := .error e h
  bind h hf := .bind h hf
  onHeap _ := .onHeap _
  noteEscape := .noteEscape
  tick := .tick S.limits
  counted h := .counted h
  nested h := .nested h
  inScope env parent vars handedOn _ _ h := .inScope env parent vars handedOn h
  allRounds hgoes hround := .allRounds hgoes hround
  fromNesting {_ r r'} h m m' hm := by
    show SameEnd (r m.nesting.now m) (r' m'.nesting.now m')
    rw [← hm.nesting]
    exact h m.nesting.now m m' hm

/-! ## 3. Requests -/

theorem Request.perform_accounted (S : Setting) (q : Request) (m : Machine) :
    Accounted S false m (q.perform S m) := (accounting S).perform q m

theorem Client.machine_ask (c : Client) (S : Setting) (q : Request) :
    (c.ask S q).2.machine = machineAfter (q.perform S c.machine) := by
  unfold Client.ask
  cases q.perform S c.machine <;> rfl

/-- No sequence of requests leaves a call or a level counted. -/
theorem Client.counts_askAll (c : Client) (S : Setting) (requests : List Request) :
    (c.askAll S requests).2.machine.depth.now = c.machine.depth.now ∧
      (c.askAll S requests).2.machine.nesting.now = c.machine.nesting.now := by
  induction requests generalizing c with
  | nil => exact ⟨rfl, rfl⟩
  | cons q rest ih =>
    have hq := q.perform_accounted S c.machine
    obtain ⟨hdepth, hnesting⟩ := ih (c.ask S q).2
    rw [c.machine_ask] at hdepth hnesting
    exact ⟨hdepth.trans hq.depth, hnesting.trans hq.nesting⟩

/-- However a request ends, the counts of calls and levels are back where they were, and were never
above the limits; the steps did not go down, and are one more than the limit exactly when the run
ended for want of steps.  So after any requests, the next one ends as if nothing had been counted in
them but steps. -/
theorem perform_gives_back (S : Setting) (m : Machine) (hm : m.steps ≤ S.limits.steps)
    (q : Request) :
    let x := q.perform S m
    let n := machineAfter x
    n.depth.now = m.depth.now ∧ n.nesting.now = m.nesting.now ∧
      m.steps ≤ n.steps ∧ n.steps ≤ S.limits.steps + 1 ∧
      (n.steps = S.limits.steps + 1 ↔ ranOut x = true) ∧
      n.depth.peak ≤ max m.depth.peak S.limits.depth ∧
      n.nesting.peak ≤ max m.nesting.peak maxNesting ∧
      ∀ (rest : List Request) (next : Request),
        let later := (Client.askAll { machine := m } S (q :: rest)).2.machine
        SameEnd (next.perform S later)
          (next.perform S { later with depth := m.depth, nesting := m.nesting }) := by
  intro x n
  have hx := q.perform_accounted S m
  have hsteps : n.steps = S.limits.steps + 1 ↔ ranOut x = true := by
    cases hran : ranOut x with
    | false =>
      have hle : n.steps ≤ S.limits.steps := hx.within hm hran
      simp only [Bool.false_eq_true, iff_false]
      omega
    | true => simpa using hx.spent hm hran
  have hle : n.steps ≤ S.limits.steps + 1 := by
    cases hran : ranOut x with
    | false => exact Nat.le_succ_of_le (hx.within hm hran)
    | true => exact Nat.le_of_eq (hx.spent hm hran)
  refine ⟨hx.depth, hx.nesting, hx.steps, hle, hsteps, hx.depthPeak, hx.nestingPeak, ?_⟩
  intro rest next later
  -- after any requests the counts are the first ones again, so only peaks can differ
  have hcounts := Client.counts_askAll { machine := m } S (q :: rest)
  have hsame : later.SameNow { later with depth := m.depth, nesting := m.nesting } :=
    ⟨rfl, rfl, hcounts.1, hcounts.2, rfl⟩
  exact (ignoringPeaks S).perform next later _ hsame

/-- A loop without an end. -/
def endlessLoop : List Stmt := [.loop (.bool true) (.block [])]

/-- The theorem for an endless loop with twenty steps: it takes one more and leaves nothing
counted. -/
theorem perform_endlessLoop :
    let S : Setting := { limits := ⟨20, 64⟩ }
    let m : Machine := { heap := { scopes := #[⟨[], none⟩], nextSource := 1 } }
    let x := (Request.run ⟨0, 0⟩ endlessLoop).perform S m
    m.steps ≤ S.limits.steps ∧ ranOut x = true ∧
      (machineAfter x).steps = S.limits.steps + 1 ∧
      (machineAfter x).nesting.now = m.nesting.now := by
  intro S m
  have hm : m.steps ≤ S.limits.steps := Nat.zero_le 20
  have hran : ranOut ((Request.run ⟨0, 0⟩ endlessLoop).perform S m) = true := by decide +kernel
  have hback := perform_gives_back S m hm (Request.run ⟨0, 0⟩ endlessLoop)
  exact ⟨hm, hran, hback.2.2.2.2.1.mpr hran, hback.2.1⟩

end TraceViewer.Snippet
