import TraceViewer.Proofs.Snippet.Ahead
import TraceViewer.Proofs.Snippet.Counters

/-!
# Where functions are declared

The functions of a block are declared before its statements run, wherever in the block they stand.
So a block does the same when they stand elsewhere in it, save that its functions get their marks in
another order, and that the steps for passing over them are taken at other times.
-/

namespace TraceViewer.Snippet

variable {α β : Type} {S : Setting} {env env' : Env} {body body' : List Stmt}

/-! ## 1. The functions of a block -/

def Stmt.isFunction : Stmt → Bool
  | .function _ => true
  | _ => false

/-- The function that a statement declares, with its name. -/
def Stmt.declared? : Stmt → Option (String × Function)
  | .function f => f.name.map (·, f)
  | _ => none

def declaredFunctions (body : List Stmt) : List (String × Function) :=
  body.filterMap Stmt.declared?

def functionNames (body : List Stmt) : List String := (declaredFunctions body).map (·.1)

/-- The statements of a block that declare no function. -/
def otherStatements (body : List Stmt) : List Stmt := body.filter (!·.isFunction)

/-- Blocks of the same statements, which differ at most in where their functions stand. -/
structure Moved (body body' : List Stmt) : Prop where
  statements : body.Perm body'
  others : otherStatements body = otherStatements body'

theorem Moved.functions (h : Moved body body') :
    (declaredFunctions body).Perm (declaredFunctions body') := h.statements.filterMap _

theorem Moved.names (h : Moved body body') : (functionNames body).Perm (functionNames body') :=
  h.functions.map _

/-! ## 2. Declaring functions -/

namespace Heap

/-- A heap that has given out some marks. -/
def withMarks (h : Heap) (k : Nat) : Heap := { h with nextMark := h.nextMark + k }

/-- The mark of a name when names get the next marks one after another. -/
def markOf (h : Heap) (names : List String) (name : String) : Nat := h.nextMark + names.idxOf name

theorem withMarks_withMarks (h : Heap) (j k : Nat) :
    (h.withMarks j).withMarks k = h.withMarks (j + k) := by
  unfold withMarks
  rw [Nat.add_assoc]

/-- A heap with functions declared in a scope, each with the mark that its name gets. -/
def withFunctions (env : Env) (mark : String → Nat) :
    List (String × Function) → Heap → Heap
  | [], h => h
  | (name, f) :: rest, h =>
    withFunctions env mark rest
      (h.declare env.scope name (.closure (mark name) ⟨f, env.scope, env.source⟩))

theorem withFunctions_congr {mark mark' : String → Nat} {fs : List (String × Function)}
    (h : ∀ name ∈ fs.map (·.1), mark name = mark' name) (heap : Heap) :
    withFunctions env mark fs heap = withFunctions env mark' fs heap := by
  induction fs generalizing heap with
  | nil => rfl
  | cons f rest ih =>
    obtain ⟨hf, hrest⟩ := List.forall_mem_cons.mp h
    obtain ⟨name, f⟩ := f
    unfold withFunctions
    rw [ih hrest, hf]

theorem markOf_cons {name other : String} (hne : other ≠ name) (h : Heap) (names : List String) :
    h.markOf (name :: names) other = (h.withMarks 1).markOf names other := by
  unfold markOf withMarks
  rw [List.idxOf_cons_ne _ (Ne.symm hne)]
  dsimp only
  omega

end Heap

/-- A machine with functions declared in a scope, with the marks that they get in an order of their
names. -/
def Machine.hoisted (m : Machine) (env : Env) (names : List String)
    (fs : List (String × Function)) : Machine :=
  { m with
    heap := (m.heap.withMarks names.length).withFunctions env (m.heap.markOf names) fs }

/-- A statement that declares no function under a name is passed over. -/
theorem hoist_cons_none {s : Stmt} (hs : s.declared? = none) (rest : List Stmt) :
    Eval.hoist env (s :: rest) = Eval.hoist env rest := by
  cases s with
  | function f =>
    have hname : f.name = none := Option.map_eq_none_iff.mp hs
    rw [Eval.hoist]
    rw [hname]
  | _ => rfl

theorem hoist_cons_some {s : Stmt} {name : String} {f : Function}
    (hs : s.declared? = some (name, f)) (rest : List Stmt) (m : Machine) :
    Eval.hoist env (s :: rest) m =
      Eval.hoist env rest { m with
        heap := (m.heap.withMarks 1).declare env.scope name
          (.closure m.heap.nextMark ⟨f, env.scope, env.source⟩) } := by
  cases s with
  | function g =>
    obtain ⟨other, hname, hpair⟩ := Option.map_eq_some_iff.mp hs
    cases hpair
    rw [Eval.hoist]
    rw [hname]
    rfl
  | _ => cases hs

/-- What hoisting does: the functions of a block get the next marks in the order in which they
stand. -/
theorem hoist_apply (hnames : (functionNames body).Nodup) (m : Machine) :
    Eval.hoist env body m =
      .ok () (m.hoisted env (functionNames body) (declaredFunctions body)) := by
  induction body generalizing m with
  | nil => rfl
  | cons s rest ih =>
    cases hs : s.declared? with
    | none =>
      have hfunctions : declaredFunctions (s :: rest) = declaredFunctions rest :=
        List.filterMap_cons_none hs
      unfold functionNames at hnames ⊢
      rw [hfunctions] at hnames ⊢
      rw [hoist_cons_none hs]
      exact ih hnames m
    | some declared =>
      obtain ⟨name, f⟩ := declared
      have hfunctions : declaredFunctions (s :: rest) = (name, f) :: declaredFunctions rest :=
        List.filterMap_cons_some hs
      have hcons : functionNames (s :: rest) = name :: functionNames rest := by
        unfold functionNames
        rw [hfunctions, List.map_cons]
      rw [hcons] at hnames ⊢
      obtain ⟨hnew, hnames⟩ := List.nodup_cons.mp hnames
      rw [hoist_cons_some hs, ih hnames, hfunctions]
      -- the first function gets the next mark, and the others theirs behind it
      have hmark : m.heap.markOf (name :: functionNames rest) name = m.heap.nextMark := by
        rw [Heap.markOf, List.idxOf_cons_self, Nat.add_zero]
      have hmarks : ∀ other ∈ functionNames rest, (m.heap.withMarks 1).markOf (functionNames rest)
          other = m.heap.markOf (name :: functionNames rest) other := by
        intro other hother
        have hne : other ≠ name := fun heq => hnew (heq ▸ hother)
        exact (Heap.markOf_cons hne m.heap _).symm
      unfold Machine.hoisted
      rw [Heap.withFunctions, hmark, ← Heap.withFunctions_congr hmarks, List.length_cons,
        Nat.add_comm, ← Heap.withMarks_withMarks]
      rfl

/-! ## 3. Other marks and another order -/

/-- Functions declared with marks that stand for each other. -/
theorem Heap.Alike.withFunctions {ρ : Renaming} {h h' : Heap} (hh : h.Alike ρ h')
    (hscope : ρ.scope env.scope env'.scope) (hsource : ρ.source env.source env'.source)
    {mark mark' : String → Nat} {fs : List (String × Function)}
    (hmark : ∀ name ∈ fs.map (·.1), ρ.mark (mark name) (mark' name)) :
    (h.withFunctions env mark fs).Alike ρ (h'.withFunctions env' mark' fs) := by
  induction fs generalizing h h' with
  | nil => exact hh
  | cons f rest ih =>
    obtain ⟨hf, hrest⟩ := List.forall_mem_cons.mp hmark
    exact ih (hh.declare hscope f.1 (.closure hf hscope hsource)) hrest

/-- Variables of two names may be declared in either order. -/
theorem Heap.SameVars.declare_comm {h h' : Heap} (hh : h.SameVars h') (scope : Nat)
    {name other : String} (hne : name ≠ other) (v w : Value) :
    ((h.declare scope name v).declare scope other w).SameVars
      ((h'.declare scope other w).declare scope name v) := by
  refine ⟨hh.nextMark, hh.nextSource, ?_, fun i => ?_⟩
  · unfold Heap.declare
    rw [size_modifyVars, size_modifyVars, size_modifyVars, size_modifyVars, hh.size]
  · unfold Heap.declare
    rw [scopes_modifyVars, scopes_modifyVars, scopes_modifyVars, scopes_modifyVars]
    have hi := hh.scope i
    generalize h.scopes[i]? = s at hi
    generalize h'.scopes[i]? = s' at hi
    split
    · cases hi with
      | none => exact .none
      | some hs =>
        refine .some ⟨hs.parent, fun asked => ?_⟩
        rw [lookup_setVar, lookup_setVar, lookup_setVar, lookup_setVar, hs.lookup]
        by_cases hasked : asked = name
        · rw [if_pos hasked, if_neg (hasked ▸ hne), if_pos hasked]
        · rw [if_neg hasked, if_neg hasked]
    · exact hi

theorem Heap.SameVars.withFunctions (mark : String → Nat) (fs : List (String × Function))
    {h h' : Heap} (hh : h.SameVars h') :
    (h.withFunctions env mark fs).SameVars (h'.withFunctions env mark fs) := by
  induction fs generalizing h h' with
  | nil => exact hh
  | cons f rest ih => exact ih (hh.setVar _ _ _)

/-- Functions of different names may be declared in any order. -/
theorem Heap.SameVars.withFunctions_perm {mark : String → Nat} {fs fs' : List (String × Function)}
    (hperm : fs.Perm fs') (hnames : (fs.map (·.1)).Nodup) {h h' : Heap} (hh : h.SameVars h') :
    (h.withFunctions env mark fs).SameVars (h'.withFunctions env mark fs') := by
  induction hperm generalizing h h' with
  | nil => exact hh
  | cons f _ ih => exact ih (List.nodup_cons.mp hnames).2 (hh.setVar _ _ _)
  | swap f g rest =>
    have hnew := (List.nodup_cons.mp hnames).1
    have hne : g.1 ≠ f.1 := fun heq => hnew (List.mem_cons.mpr (.inl heq))
    exact Heap.SameVars.withFunctions mark rest (hh.declare_comm env.scope hne _ _)
  | trans hfirst _ ih ih' =>
    have hnames' := (hfirst.map (·.1)).nodup_iff.mp hnames
    exact (ih hnames hh).trans (ih' hnames' (.refl h'))

/-! ## 4. Passing over declarations -/

/-- A declaration that is passed over takes its step and leaves all else as it is. -/
theorem exec_function (S : Setting) (env : Env) (f : Function) {g : Gauge}
    (hg : g.now < maxNesting) {m : Machine} (hlevel : m.nesting.now = g.now) :
    (Eval.within S g).exec env (.function f) m =
      if S.limits.steps ≤ m.steps then
        .error (.budgetSpent S.limits.steps) { m with steps := m.steps + 1 }
      else .ok .normal m.entered.left := by
  have hroom : ¬maxNesting ≤ m.nesting.now := by omega
  rw [within_congr hlevel.symm, exec_apply, stepped, if_neg hroom]
  rfl

theorem Machine.Ahead.passed {m m' : Machine} (h : m.Ahead m') : m.Ahead m'.entered.left :=
  { h with
    nesting := h.nesting
    steps := Nat.le_succ_of_le h.steps }

/-- A block runs as its other statements do, with a step more for each declaration that is passed
over. -/
theorem execAll_ahead (S : Setting) (env : Env) {g : Gauge} (hg : g.now < maxNesting)
    (body : List Stmt) {m m' : Machine} (hm : m.Ahead m') (hlevel : m'.nesting.now = g.now) :
    EndsAhead (Eval.execAll (Eval.within S g) env (otherStatements body) m)
      (Eval.execAll (Eval.within S g) env body m') := by
  induction body generalizing m m' with
  | nil => exact .ok _ hm
  | cons s rest ih =>
    cases hs : s.isFunction with
    | true =>
      have hothers : otherStatements (s :: rest) = otherStatements rest :=
        List.filter_cons_of_neg (by simp [hs])
      rw [hothers, Eval.execAll]
      cases s with
      | function f =>
        have hexec := exec_function S env f hg hlevel
        by_cases hspent : S.limits.steps ≤ m'.steps
        · rw [if_pos hspent] at hexec
          rw [Run.bind_error hexec]
          exact .cut _ _ _
        · rw [if_neg hspent] at hexec
          rw [Run.bind_ok hexec]
          exact ih hm.passed hlevel
      | _ => cases hs
    | false =>
      have hothers : otherStatements (s :: rest) = s :: otherStatements rest :=
        List.filter_cons_of_pos (by simp [hs])
      rw [hothers, Eval.execAll, Eval.execAll]
      have hends : EndsAhead ((Eval.within S g).exec env s m) ((Eval.within S g).exec env s m') :=
        ((gettingAhead S).level _).exec env s m m' hm
      refine hends.bind fun flow n n' hn hrun => ?_
      -- a statement gives its levels back
      have hback : Accounted S true m' ((Eval.within S g).exec env s m') :=
        ((accounting S).level _).exec env s m'
      rw [hrun] at hback
      cases flow with
      | normal => exact ih hn (hback.nesting.trans hlevel)
      | _ => exact .ok _ hn

/-- Without a level left a block fails at its first statement, whichever that is. -/
theorem execAll_full (S : Setting) (env : Env) {g : Gauge} (hg : maxNesting ≤ g.now)
    (hbody : body ≠ []) {m : Machine} (hlevel : m.nesting.now = g.now) :
    Eval.execAll (Eval.within S g) env body m =
      if S.limits.steps ≤ m.steps then
        .error (.budgetSpent S.limits.steps) { m with steps := m.steps + 1 }
      else .error (.tooNested maxNesting) { m with steps := m.steps + 1 } := by
  cases body with
  | nil => exact absurd rfl hbody
  | cons s rest =>
    have hfull : maxNesting ≤ m.nesting.now := by omega
    have hexec := exec_apply S env s m
    rw [within_congr hlevel, stepped, if_pos hfull] at hexec
    rw [Eval.execAll]
    by_cases hspent : S.limits.steps ≤ m.steps
    · rw [if_pos hspent] at hexec ⊢
      exact Run.bind_error hexec _
    · rw [if_neg hspent] at hexec ⊢
      exact Run.bind_error hexec _

/-! ## 5. Runs that match -/

/-- Flows that hand on alike values. -/
inductive Flow.Alike (ρ : Renaming) : Flow → Flow → Prop
  | normal : Flow.Alike ρ .normal .normal
  | return {v v' : Value} (h : Value.Alike ρ v v') : Flow.Alike ρ (.return v) (.return v')
  | leave : Flow.Alike ρ .leave .leave
  | continue : Flow.Alike ρ .continue .continue

theorem Flow.Alike.returned {ρ : Renaming} {flow flow' : Flow} (h : flow.Alike ρ flow') :
    OptionAlike ρ flow.returned flow'.returned := by
  cases h with
  | «return» h => exact .some h
  | _ => exact .none

theorem holdsClosure_eq_of_alike {ρ : Renaming} {out out' : Option Value}
    (h : OptionAlike ρ out out') : out.any Value.holdsClosure = out'.any Value.holdsClosure := by
  cases h with
  | none => rfl
  | some h => exact Value.holdsClosure_eq h

/-- Scopes that hold alike variables in any order, inside scopes that stand for each other. -/
structure Scope.Matches (ρ : Renaming) (s s' : Scope) : Prop where
  parent : Option.Rel ρ.scope s.parent s'.parent
  lookup : ∀ name, OptionAlike ρ (s.vars.lookup name) (s'.vars.lookup name)

/-- Machines with the same counts, save for steps and peaks, whose scopes that stand for each other
match. -/
structure Machine.Matches (ρ : Renaming) (m m' : Machine) : Prop where
  escapes : m.escapes = m'.escapes
  depth : m.depth.now = m'.depth.now
  nesting : m.nesting.now = m'.nesting.now
  scope : ∀ i i', ρ.scope i i' →
    ∃ s s', m.heap.scopes[i]? = some s ∧ m'.heap.scopes[i']? = some s' ∧ s.Matches ρ s'

/-- Runs that end with related results or the same error, and with matching variables. -/
inductive EndsMatching (ρ : Renaming) (Q : α → α → Prop) :
    EStateM.Result Error Machine α → EStateM.Result Error Machine α → Prop
  | ok {a a' : α} {m m' : Machine} (ha : Q a a') (hm : m.Matches ρ m') :
      EndsMatching ρ Q (.ok a m) (.ok a' m')
  | error (e : Error) {m m' : Machine} (hm : m.Matches ρ m') :
      EndsMatching ρ Q (.error e m) (.error e m')

/-- Runs that end alike under a renaming by which all stands for each other that did before, unless
one of them runs out of steps. -/
def MatchUnlessSpent (ρ : Renaming) (Q : Renaming → α → α → Prop)
    (x y : EStateM.Result Error Machine α) : Prop :=
  ranOut x = true ∨ ranOut y = true ∨
    ∃ σ : Renaming, σ.Faithful ∧ ρ.Le σ ∧ EndsMatching σ (Q σ) x y

namespace Machine.Matches

variable {ρ : Renaming} {m m' : Machine}

theorem clearIf (h : m.Matches ρ m') (hρ : Renaming.OneToOne ρ.scope) {i i' : Nat}
    (hi : ρ.scope i i') (b : Bool) :
    Machine.Matches ρ { m with heap := m.heap.clearIf b i }
      { m' with heap := m'.heap.clearIf b i' } := by
  cases b with
  | false => exact h
  | true =>
    refine { h with scope := fun j j' hj => ?_ }
    obtain ⟨s, s', hs, hs', hss⟩ := h.scope j j' hj
    show ∃ t t', (m.heap.modifyVars i fun _ => []).scopes[j]? = some t ∧
      (m'.heap.modifyVars i' fun _ => []).scopes[j']? = some t' ∧ t.Matches ρ t'
    rw [Heap.scopes_modifyVars, Heap.scopes_modifyVars, hs, hs']
    by_cases hij : i = j
    · rw [if_pos hij, if_pos ((hρ _ _ _ _ hi hj).mp hij)]
      exact ⟨_, _, rfl, rfl, hss.parent, fun _ => .none⟩
    · rw [if_neg hij, if_neg fun heq => hij ((hρ _ _ _ _ hi hj).mpr heq)]
      exact ⟨s, s', rfl, rfl, hss⟩

/-- Scopes that stand for each other are emptied together or not at all. -/
theorem released (h : m.Matches ρ m') (hρ : Renaming.OneToOne ρ.scope) {i i' : Nat}
    (hi : ρ.scope i i') {escapes escapes' : Nat} (hescapes : escapes = escapes')
    {out out' : Option Value}
    (hout : out.any Value.holdsClosure = out'.any Value.holdsClosure) :
    (m.released S i escapes out).Matches ρ (m'.released S i' escapes' out') := by
  have hmay : m.mayRelease escapes out = m'.mayRelease escapes' out' := by
    unfold Machine.mayRelease
    rw [h.escapes, hescapes, hout]
  unfold Machine.released
  rw [hmay]
  exact h.clearIf hρ hi _

theorem left (h : m.Matches ρ m') : m.left.Matches ρ m'.left :=
  { h with nesting := congrArg (· - 1) h.nesting }

end Machine.Matches

namespace MatchUnlessSpent

variable {ρ σ : Renaming} {Q : Renaming → α → α → Prop} {x y : EStateM.Result Error Machine α}

theorem mono (hle : ρ.Le σ) (h : MatchUnlessSpent σ Q x y) : MatchUnlessSpent ρ Q x y := by
  obtain hx | hy | ⟨τ, hτ, hστ, hends⟩ := h
  · exact .inl hx
  · exact .inr (.inl hy)
  · exact .inr (.inr ⟨τ, hτ, hle.trans hστ, hends⟩)

theorem map {r r' : Run α} {m m' : Machine} (h : MatchUnlessSpent ρ Q (r m) (r' m')) {f : α → β}
    {R : Renaming → β → β → Prop} (hf : ∀ τ a a', Q τ a a' → R τ (f a) (f a')) :
    MatchUnlessSpent ρ R ((f <$> r) m) ((f <$> r') m') := by
  show MatchUnlessSpent ρ R (EStateM.map f r m) (EStateM.map f r' m')
  unfold EStateM.map
  generalize r m = x at h
  generalize r' m' = y at h
  obtain hx | hy | ⟨τ, hτ, hle, hends⟩ := h
  · cases x with
    | ok => cases hx
    | error => exact .inl hx
  · cases y with
    | ok => cases hy
    | error => exact .inr (.inl hy)
  · refine .inr (.inr ⟨τ, hτ, hle, ?_⟩)
    cases hends with
    | ok ha hm => exact .ok (hf _ _ _ ha) hm
    | error e hm => exact .error e hm

theorem leaving {f : Machine → Machine}
    (hf : ∀ τ m m', Machine.Matches τ m m' → (f m).Matches τ (f m'))
    (h : MatchUnlessSpent ρ Q x y) :
    MatchUnlessSpent ρ Q (Snippet.leaving f x) (Snippet.leaving f y) := by
  unfold MatchUnlessSpent
  rw [ranOut_leaving, ranOut_leaving]
  obtain hx | hy | ⟨τ, hτ, hle, hends⟩ := h
  · exact .inl hx
  · exact .inr (.inl hy)
  · refine .inr (.inr ⟨τ, hτ, hle, ?_⟩)
    cases hends with
    | ok ha hm => exact .ok ha (hf _ _ _ hm)
    | error e hm => exact .error e (hf _ _ _ hm)

end MatchUnlessSpent

namespace SideBySide

variable {w : SideBySide S S} {Q : Renaming → α → α → Prop}

/-- What the two machines of runs side by side become when each of them gets ahead. -/
theorem matches_of_ahead {m m' : Machine} (hleft : w.left.Ahead m) (hright : w.right.Ahead m') :
    m.Matches w.ρ m' := by
  refine ⟨hleft.escapes.trans (w.escapes.trans hright.escapes.symm),
    hleft.depth.trans ((congrArg Gauge.now w.depth).trans hright.depth.symm),
    hleft.nesting.trans ((congrArg Gauge.now w.nesting).trans hright.nesting.symm),
    fun i i' hi => ?_⟩
  obtain ⟨s, s', hs, hs', halike⟩ := w.heap.scope i i' hi
  have ht := hleft.heap.scope i
  have ht' := hright.heap.scope i'
  rw [hs] at ht
  rw [hs'] at ht'
  generalize m.heap.scopes[i]? = t at ht
  generalize m'.heap.scopes[i']? = t' at ht'
  cases ht with
  | @some _ t ht =>
    cases ht' with
    | @some _ t' ht' =>
      refine ⟨t, t', rfl, rfl, ?_, fun name => ?_⟩
      · rw [ht.parent, ht'.parent]
        exact optionRel_imp (fun _ _ hp => hp.2.2) halike.parent
      · rw [ht.lookup, ht'.lookup]
        exact halike.vars.lookup name

/-- Runs that fail with the same error as soon as they have taken their steps. -/
theorem matching_error (e : Error) {m m' : Machine} (hleft : w.left.Ahead m)
    (hright : w.right.Ahead m') :
    MatchUnlessSpent w.ρ Q (.error e m) (.error e m') :=
  .inr (.inr ⟨w.ρ, w.heap.faithful, .refl _, .error e (SideBySide.matches_of_ahead hleft hright)⟩)

theorem matching_counted {r r' : Run α}
    (h : MatchUnlessSpent w.ρ Q (r { w.left with depth := w.left.depth.up })
      (r' { w.right with depth := w.right.depth.up })) :
    MatchUnlessSpent w.ρ Q (Eval.counted S r w.left) (Eval.counted S r' w.right) := by
  rw [counted_apply, counted_apply]
  by_cases hfull : S.limits.depth ≤ w.left.depth.now
  · rw [if_pos hfull, if_pos (w.depth ▸ hfull)]
    exact w.matching_error _ (.refl _) (.refl _)
  · rw [if_neg hfull, if_neg (w.depth ▸ hfull)]
    exact h.leaving fun τ m m' hm => { hm with depth := congrArg (· - 1) hm.depth }

/-- The machines after the step and the level of an expression were taken. -/
def entered (w : SideBySide S S) : SideBySide S S :=
  { w with
    left := w.left.entered
    right := w.right.entered
    steps := congrArg (· + 1) w.steps
    nesting := congrArg Gauge.up w.nesting }

theorem matching_stepped {r r' : Run α}
    (h : MatchUnlessSpent w.ρ Q (r w.left.entered) (r' w.right.entered)) :
    MatchUnlessSpent w.ρ Q (stepped S r w.left) (stepped S r' w.right) := by
  have hsteps : S.limits.steps ≤ w.right.steps ↔ S.limits.steps ≤ w.left.steps := by rw [w.steps]
  have hnesting : maxNesting ≤ w.right.nesting.now ↔ maxNesting ≤ w.left.nesting.now := by
    rw [w.nesting]
  unfold stepped
  by_cases hspent : S.limits.steps ≤ w.left.steps
  · rw [if_pos hspent]
    exact .inl rfl
  · rw [if_neg hspent, if_neg (hsteps.not.mpr hspent)]
    by_cases hfull : maxNesting ≤ w.left.nesting.now
    · rw [if_pos hfull, if_pos (hnesting.mpr hfull)]
      exact w.matching_error _ { Machine.Ahead.refl w.left with steps := Nat.le_succ _ }
        { Machine.Ahead.refl w.right with steps := Nat.le_succ _ }
    · rw [if_neg hfull, if_neg (hnesting.not.mpr hfull)]
      exact h.leaving fun _ _ _ hm => hm.left

theorem matching_inScope (henv : w.EnvAlike env env') {vars vars' : List (String × Value)}
    (hvars : FieldsAlike w.ρ vars vars') {handedOn : α → Option Value}
    (hout : ∀ τ a a', Q τ a a' → OptionAlike τ (handedOn a) (handedOn a'))
    {body body' : Env → Run α}
    (hbody : ∀ (v : SideBySide S S) inside inside', v.EnvAlike inside inside' →
      v.left.nesting = w.left.nesting →
      MatchUnlessSpent v.ρ Q (body inside v.left) (body' inside' v.right)) :
    MatchUnlessSpent w.ρ Q (Eval.inScope S env env.scope vars handedOn body w.left)
      (Eval.inScope S env' env'.scope vars' handedOn body' w.right) := by
  have hp : Option.Rel w.ρ.scope (some env.scope) (some env'.scope) := .some henv.scope
  have hin := Leads.enter w hp hvars
  have hnew : (w.enter hp hvars).ρ.scope w.left.heap.scopes.size w.right.heap.scopes.size :=
    .inr ⟨0, Nat.one_pos, rfl, rfl⟩
  have hruns := hbody (w.enter hp hvars) { env with scope := w.left.heap.scopes.size }
    { env' with scope := w.right.heap.scopes.size } ⟨hnew, hin.le.source _ _ henv.source⟩ rfl
  rw [inScope_apply, inScope_apply]
  unfold SideBySide.enter at hruns hnew
  dsimp only at hruns hnew
  generalize body _ _ = x at hruns ⊢
  generalize body' _ _ = y at hruns ⊢
  obtain hx | hy | ⟨τ, hτ, hle, hends⟩ := hruns
  · cases x with
    | ok => cases hx
    | error => exact .inl hx
  · cases y with
    | ok => cases hy
    | error => exact .inr (.inl hy)
  · refine .inr (.inr ⟨τ, hτ, hin.le.trans hle, ?_⟩)
    have hi := hle.scope _ _ hnew
    cases hends with
    | ok ha hm =>
      exact .ok ha (hm.released hτ.scope hi w.escapes (holdsClosure_eq_of_alike (hout _ _ _ ha)))
    | error e hm => exact .error e (hm.released hτ.scope hi w.escapes rfl)

end SideBySide

/-! ## 6. Blocks with their functions elsewhere -/

section Marks

variable {ρ : Renaming} {h h' : Heap} {names names' : List String}

/-- A renaming in which the marks that names get in one order stand for those that they get in
another. -/
def Renaming.reordered (ρ : Renaming) (h h' : Heap) (names names' : List String) : Renaming :=
  { ρ with
    mark := fun a b => ρ.mark a b ∨
      ∃ name ∈ names, a = h.markOf names name ∧ b = h'.markOf names' name }

theorem Renaming.le_reordered : ρ.Le (ρ.reordered h h' names names') :=
  ⟨fun _ _ => .inl, fun _ _ h => h, fun _ _ h => h⟩

theorem Heap.Alike.reordered_faithful (hh : h.Alike ρ h') (hnames : ∀ name ∈ names, name ∈ names') :
    (ρ.reordered h h' names names').Faithful := by
  refine ⟨?_, hh.faithful.scope, hh.faithful.source⟩
  rintro a a' b b' (ha | ⟨name, hname, rfl, rfl⟩) (hb | ⟨other, hother, rfl, rfl⟩)
  · exact hh.faithful.mark a a' b b' ha hb
  · have hlt := hh.mark a a' ha
    unfold Heap.markOf
    omega
  · have hlt := hh.mark b b' hb
    unfold Heap.markOf
    omega
  · unfold Heap.markOf
    rw [Nat.add_left_cancel_iff, Nat.add_left_cancel_iff, List.idxOf_inj hname,
      List.idxOf_inj (hnames name hname)]

/-- Heaps that are alike stay so when they give out marks for the same names in different orders. -/
theorem Heap.Alike.reordered (hh : h.Alike ρ h') (hnames : names.Perm names') :
    (h.withMarks names.length).Alike (ρ.reordered h h' names names')
      (h'.withMarks names'.length) := by
  refine ⟨hh.reordered_faithful fun name hname => hnames.mem_iff.mp hname, ?_, hh.source,
    fun i i' hi => ?_⟩
  · show ∀ a b, _ → a < h.nextMark + names.length ∧ b < h'.nextMark + names'.length
    rintro a b (hab | ⟨name, hname, rfl, rfl⟩)
    · have hlt := hh.mark a b hab
      omega
    · have hfirst := List.idxOf_lt_length_of_mem hname
      have hsecond := List.idxOf_lt_length_of_mem (hnames.mem_iff.mp hname)
      unfold Heap.markOf
      omega
  · obtain ⟨s, s', hs, hs', halike⟩ := hh.scope i i' hi
    exact ⟨s, s', hs, hs', halike.mono Renaming.le_reordered⟩

end Marks

namespace SideBySide

variable {w : SideBySide S S}

/-- Machines side by side after the functions of a block were declared, with the marks on the right
that they get in another block. -/
theorem hoisted (w : SideBySide S S) (henv : w.EnvAlike env env') (hmoved : Moved body body') :
    ∃ v : SideBySide S S, w.ρ.Le v.ρ ∧
      v.left = w.left.hoisted env (functionNames body) (declaredFunctions body) ∧
      v.right = w.right.hoisted env' (functionNames body') (declaredFunctions body) := by
  have hle : w.ρ.Le (w.ρ.reordered w.left.heap w.right.heap (functionNames body)
    (functionNames body')) := Renaming.le_reordered
  let v : SideBySide S S :=
    { ρ := w.ρ.reordered w.left.heap w.right.heap (functionNames body) (functionNames body')
      left := w.left.hoisted env (functionNames body) (declaredFunctions body)
      right := w.right.hoisted env' (functionNames body') (declaredFunctions body)
      globals := w.globals.mono hle
      steps := w.steps
      depth := w.depth
      nesting := w.nesting
      escapes := w.escapes
      heap := (w.heap.reordered hmoved.names).withFunctions (hle.scope _ _ henv.scope)
        (hle.source _ _ henv.source) fun name hname => .inr ⟨name, hname, rfl, rfl⟩ }
  exact ⟨v, hle, rfl, rfl⟩

theorem Flows.alike {flow flow' : Flow} (h : SideBySide.Flows w flow flow') :
    flow.Alike w.ρ flow' := by
  cases h with
  | normal => exact .normal
  | «return» h => exact .return h
  | leave => exact .leave
  | «continue» => exact .continue

/-- How two runs end that are each ahead of runs side by side. -/
theorem Ends.matching {own : Option Nat} {p q x y : EStateM.Result Error Machine Flow}
    (h : SideBySide.Ends own w SideBySide.Flows p q) (hx : EndsAhead p x) (hy : EndsAhead q y) :
    MatchUnlessSpent w.ρ Flow.Alike x y := by
  cases h with
  | ok v hv hflows =>
    cases hx with
    | cut => exact .inl rfl
    | ok _ hleft =>
      cases hy with
      | cut => exact .inr (.inl rfl)
      | ok _ hright =>
        exact .inr (.inr ⟨v.ρ, v.heap.faithful, hv.le,
          .ok hflows.alike (SideBySide.matches_of_ahead hleft hright)⟩)
  | error v hv e =>
    cases hx with
    | cut => exact .inl rfl
    | error _ hleft =>
      cases hy with
      | cut => exact .inr (.inl rfl)
      | error _ hright => exact (v.matching_error e hleft hright).mono hv.le
  | cut he _ _ => exact absurd he (SideBySide.not_cut rfl _)

/-- How the statements of two such blocks end, once the functions are declared. -/
theorem execAll_moved {m : Machine} (henv : w.EnvAlike env env') (hmoved : Moved body body')
    (hm : w.right.Ahead m) :
    MatchUnlessSpent w.ρ Flow.Alike (Eval.execAll (Eval.within S w.left.nesting) env body w.left)
      (Eval.execAll (Eval.within S w.left.nesting) env' body' m) := by
  have hlevel : m.nesting.now = w.left.nesting.now := by rw [hm.nesting, w.nesting]
  by_cases hroom : w.left.nesting.now < maxNesting
  · have hx := execAll_ahead S env hroom body (.refl w.left) rfl
    have hy := execAll_ahead S env' hroom body' hm hlevel
    rw [← hmoved.others] at hy
    have hlevels : SideBySide.EvaluatorsAlike S S (Eval.within S w.left.nesting)
        (Eval.within S w.left.nesting) :=
      SideBySide.withinAlike ⟨Nat.le_refl _, Nat.le_refl _⟩ rfl
    exact Ends.matching (SideBySide.Runs.execAll hlevels henv _) hx hy
  · by_cases hbody : body = []
    · subst hbody
      cases hmoved.statements.nil_eq
      exact .inr (.inr ⟨w.ρ, w.heap.faithful, .refl _,
        .ok .normal (SideBySide.matches_of_ahead (.refl _) hm)⟩)
    · have hbody' : body' ≠ [] := by
        intro hnil
        have hperm := hmoved.statements
        rw [hnil] at hperm
        exact hbody hperm.eq_nil
      have hsteps := w.steps
      have hahead := hm.steps
      rw [execAll_full S env (Nat.le_of_not_lt hroom) hbody rfl,
        execAll_full S env' (Nat.le_of_not_lt hroom) hbody' hlevel]
      -- both fail at their first statement, for want of a level or of a step
      by_cases hspent : S.limits.steps ≤ m.steps
      · rw [if_pos hspent]
        exact .inr (.inl rfl)
      · rw [if_neg hspent, if_neg (by omega)]
        exact w.matching_error _ { Machine.Ahead.refl w.left with steps := Nat.le_succ _ }
          { hm with steps := Nat.le_succ_of_le hahead }

end SideBySide

/-- In a block whose functions stand elsewhere the same functions are declared, in another order. -/
theorem Moved.hoisted_ahead (hmoved : Moved body body') (hnames : (functionNames body).Nodup)
    (m : Machine) (env : Env) (names : List String) :
    (m.hoisted env names (declaredFunctions body)).Ahead
      (m.hoisted env names (declaredFunctions body')) where
  heap := Heap.SameVars.withFunctions_perm hmoved.functions hnames (.refl _)
  escapes := rfl
  depth := rfl
  nesting := rfl
  steps := Nat.le_refl _

/-- Two such blocks end alike, wherever they are run. -/
theorem SideBySide.execBlock_moved (w : SideBySide S S) (henv : w.EnvAlike env env')
    (hmoved : Moved body body') (hnames : (functionNames body).Nodup) :
    MatchUnlessSpent w.ρ Flow.Alike
      (Eval.execBlock (Eval.within S w.left.nesting) env body w.left)
      (Eval.execBlock (Eval.within S w.left.nesting) env' body' w.right) := by
  have hnames' := hmoved.names.nodup_iff.mp hnames
  obtain ⟨v, hle, hleft, hright⟩ := w.hoisted henv hmoved
  have hahead := hmoved.hoisted_ahead hnames w.right env' (functionNames body')
  rw [← hright] at hahead
  have hall := v.execAll_moved (henv.mono hle) hmoved hahead
  rw [hleft] at hall
  have hx : Eval.execBlock (Eval.within S w.left.nesting) env body w.left = _ :=
    Run.bind_ok (hoist_apply hnames w.left) _
  have hy : Eval.execBlock (Eval.within S w.left.nesting) env' body' w.right = _ :=
    Run.bind_ok (hoist_apply hnames' w.right) _
  rw [hx, hy]
  exact hall.mono hle

/-- Two such blocks as statements, in scopes of their own. -/
theorem SideBySide.exec_block_moved (w : SideBySide S S) (henv : w.EnvAlike env env')
    (hmoved : Moved body body') (hnames : (functionNames body).Nodup) :
    MatchUnlessSpent w.ρ Flow.Alike
      ((Eval.within S w.left.nesting).exec env (.block body) w.left)
      ((Eval.within S w.right.nesting).exec env' (.block body') w.right) := by
  rw [exec_apply, exec_apply]
  have hinside : w.entered.EnvAlike env env' := ⟨henv.scope, henv.source⟩
  refine w.matching_stepped ?_
  rw [Eval.execBody, Eval.execBody]
  refine w.entered.matching_inScope (Q := Flow.Alike) hinside .nil (fun _ _ _ h => h.returned)
    fun v inside inside' hinside hlevel => ?_
  have hleft : w.left.entered.nesting = v.left.nesting := hlevel.symm
  have hright : w.right.entered.nesting = v.left.nesting := w.entered.nesting.symm.trans hleft
  rw [hleft, hright]
  exact v.execBlock_moved hinside hmoved hnames

theorem runBody_block (inner : Evaluators) (env : Env) (body : List Stmt) :
    Eval.runBody inner env (.block body) =
      (fun flow => flow.returned.getD .undefined) <$> Eval.execBlock inner env body := by
  rw [map_eq_pure_bind, Eval.runBody]
  apply bind_congr
  intro flow
  cases flow <;> rfl

/-- Calls of two functions whose bodies are such blocks. -/
theorem SideBySide.runCall_moved (w : SideBySide S S) (henv : w.EnvAlike env env')
    (hmoved : Moved body body') (hnames : (functionNames body).Nodup) (mark mark' : Nat)
    (name : Option String) (params : List String) {args args' : List Value}
    (hargs : ItemsAlike w.ρ args args') :
    MatchUnlessSpent w.ρ Value.Alike
      (runCall S (.closure mark ⟨.mk name params (.block body), env.scope, env.source⟩) args w.left)
      (runCall S (.closure mark' ⟨.mk name params (.block body'), env'.scope, env'.source⟩) args'
        w.right) := by
  rw [runCall_apply, runCall_apply]
  refine w.matching_counted ?_
  let called := w.atCounts w.left.depth.up w.right.depth.up w.left.nesting w.right.nesting
    (congrArg Gauge.up w.depth) w.nesting
  have hinside : called.EnvAlike env env' := ⟨henv.scope, henv.source⟩
  refine called.matching_inScope hinside (bindParams_alike params hargs) (fun _ _ _ h => .some h)
    fun v inside inside' hinside hlevel => ?_
  have hleft : w.left.nesting = v.left.nesting := hlevel.symm
  rw [← w.nesting, hleft]
  show MatchUnlessSpent v.ρ Value.Alike (Eval.runBody _ inside (.block body) v.left)
    (Eval.runBody _ inside' (.block body') v.right)
  rw [runBody_block, runBody_block]
  refine (v.execBlock_moved hinside hmoved hnames).map fun τ flow flow' h => ?_
  have hreturned := h.returned
  generalize flow.returned = out at hreturned
  generalize flow'.returned = out' at hreturned
  cases hreturned with
  | none => exact .plain rfl
  | some h => exact h

/-- Function declarations are position-independent: a program, a block and a function whose
functions have different names end with an alike result or the same error when these stand anywhere
else in it, and leave alike variables in all scopes that stand for each other, those that there was
a way to before among them, unless one of the two runs out of steps.  The machine may be in any
state, with any scopes held, in which no number was made up. -/
theorem functions_moved {c : Client} (hc : c.Sound S) (henv : (Request.run env body).Allowed c)
    (hmoved : Moved body body') (hnames : (functionNames body).Nodup) :
    MatchUnlessSpent c.numbers OptionAlike (runProgram S env body c.machine)
        (runProgram S env body' c.machine) ∧
      MatchUnlessSpent c.numbers Flow.Alike
        ((Eval.within S c.machine.nesting).exec env (.block body) c.machine)
        ((Eval.within S c.machine.nesting).exec env (.block body') c.machine) ∧
      ∀ (mark : Nat) (name : Option String) (params : List String) {args : List Value},
        ItemsAlike c.numbers args args →
        MatchUnlessSpent c.numbers Value.Alike
          (runCall S (.closure mark ⟨.mk name params (.block body), env.scope, env.source⟩) args
            c.machine)
          (runCall S (.closure mark ⟨.mk name params (.block body'), env.scope, env.source⟩) args
            c.machine) := by
  obtain ⟨w, hw⟩ : ∃ w : SideBySide S S, ClientsAlike w c c := hc.alike rfl
  have hle := hw.numbers_le
  have halike : w.EnvAlike env env := ⟨hle.scope _ _ henv.1, hle.source _ _ henv.2⟩
  refine ⟨?_, ?_, fun mark name params args hargs => ?_⟩
  · have hblock := w.execBlock_moved halike hmoved hnames
    rw [hw.left, hw.right] at hblock
    rw [runProgram_apply, runProgram_apply]
    exact (hblock.mono hle).map fun _ _ _ h => h.returned
  · have hblock := w.exec_block_moved halike hmoved hnames
    rw [hw.left, hw.right] at hblock
    exact hblock.mono hle
  · have hcall := w.runCall_moved halike hmoved hnames mark mark name params (hargs.mono hle)
    rw [hw.left, hw.right] at hcall
    exact hcall.mono hle

/-- A program that calls one function in another, both declared in front of the call. -/
def callingProgram : List Stmt :=
  [.function (.mk (some "twice") ["x"] (.expr (.binary .mul (.ident "x") (.number 2)))),
    .function (.mk (some "next") ["x"]
      (.expr (.binary .add (.call (.ident "twice") [.ident "x"] false) (.number 1)))),
    .return (some (.call (.ident "next") [.number 3] false))]

/-- The theorem for a program whose functions are declared behind the call instead, and the other
way round. -/
theorem functions_moved_callingProgram :
    let c : Client := (Client.ask { machine := { heap := {} } } {} (.openTop [])).2
    c.Sound {} ∧ (Request.run ⟨0, 0⟩ callingProgram).Allowed c ∧
      Moved callingProgram callingProgram.reverse ∧ (functionNames callingProgram).Nodup ∧
      ItemsAlike c.numbers [] [] ∧
      (∃ ρ : Renaming, ρ.Faithful ∧ c.numbers.Le ρ ∧
        EndsMatching ρ (OptionAlike ρ) (runProgram {} ⟨0, 0⟩ callingProgram c.machine)
          (runProgram {} ⟨0, 0⟩ callingProgram.reverse c.machine)) ∧
      (∃ ρ : Renaming, ρ.Faithful ∧ c.numbers.Le ρ ∧
        EndsMatching ρ (Flow.Alike ρ)
          ((Eval.within {} c.machine.nesting).exec ⟨0, 0⟩ (.block callingProgram) c.machine)
          ((Eval.within {} c.machine.nesting).exec ⟨0, 0⟩ (.block callingProgram.reverse)
            c.machine)) ∧
      ∃ ρ : Renaming, ρ.Faithful ∧ c.numbers.Le ρ ∧
        EndsMatching ρ (Value.Alike ρ)
          (runCall {} (.closure 0 ⟨.mk none [] (.block callingProgram), 0, 0⟩) [] c.machine)
          (runCall {} (.closure 0 ⟨.mk none [] (.block callingProgram.reverse), 0, 0⟩) []
            c.machine) := by
  intro c
  have hc : c.Sound {} := Client.Sound.ask (Client.sound_new {} rfl) Fields.Rel.nil
  have henv : (Request.run ⟨0, 0⟩ callingProgram).Allowed c :=
    ⟨⟨rfl, .held (List.mem_singleton_self 0)⟩, rfl, Nat.one_pos⟩
  have hmoved : Moved callingProgram callingProgram.reverse :=
    ⟨(List.reverse_perm callingProgram).symm, rfl⟩
  have hnames : (functionNames callingProgram).Nodup := by decide
  obtain ⟨hprogram, hblock, hcall⟩ := functions_moved hc henv hmoved hnames
  -- none of the six runs is out of steps
  refine ⟨hc, henv, hmoved, hnames, .nil, ?_, ?_, ?_⟩
  · obtain hspent | hspent | hends := hprogram
    · exact absurd hspent (by decide +kernel)
    · exact absurd hspent (by decide +kernel)
    · exact hends
  · obtain hspent | hspent | hends := hblock
    · exact absurd hspent (by decide +kernel)
    · exact absurd hspent (by decide +kernel)
    · exact hends
  · obtain hspent | hspent | hends := hcall 0 none [] .nil
    · exact absurd hspent (by decide +kernel)
    · exact absurd hspent (by decide +kernel)
    · exact hends

end TraceViewer.Snippet
