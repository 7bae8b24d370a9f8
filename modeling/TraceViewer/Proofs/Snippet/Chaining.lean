import TraceViewer.Proofs.Snippet.Deeper

/-!
# Optional chaining ends the whole chain

A guarded link whose target is null or undefined ends the chain that it is part of, whatever links
follow: their keys and arguments are not evaluated.
-/

namespace TraceViewer.Snippet

/-! ## 1. Chains -/

/-- A link of a chain: a member, an index or a call, each of which may be guarded. -/
inductive Link where
  | member (name : String) (guarded : Bool)
  | index (key : Expr) (guarded : Bool)
  | call (args : List Expr) (guarded : Bool)

namespace Link

/-- An expression with a link behind it. -/
def onto (e : Expr) : Link → Expr
  | .member name guarded => .member e name guarded
  | .index key guarded => .index e key guarded
  | .call args guarded => .call e args guarded

/-- A link without its key or its arguments. -/
def bare : Link → Link
  | .member name guarded => .member name guarded
  | .index _ guarded => .index .null guarded
  | .call _ guarded => .call [] guarded

/-- Whether a link ends its chain where its target is null or undefined. -/
def endsChain : Link → Bool
  | .member _ guarded | .index _ guarded => guarded
  | .call _ _ => false

end Link

/-- An expression with links behind it. -/
def linked (e : Expr) (links : List Link) : Expr := links.foldl Link.onto e

/-- Whether an expression is a chain, of one link at least. -/
def Expr.isChain : Expr → Bool
  | .member .. | .index .. | .call .. => true
  | _ => false

theorem isChain_linked (e : Expr) (l : Link) (rest : List Link) :
    (linked e (l :: rest)).isChain = true := by
  induction rest generalizing e l with
  | nil => cases l <;> rfl
  | cons k rest ih => exact ih (l.onto e) k

theorem evalBody_of_isChain {e : Expr} (h : e.isChain = true) (S : Setting) (inner : Evaluators)
    (env : Env) :
    Eval.evalBody S inner env e = do return (← Eval.evalChain S inner env e).getD .undefined := by
  cases e with
  | member _ _ _ | index _ _ _ | call _ _ _ => rfl
  | _ => cases h

theorem evalChain_of_not_isChain {e : Expr} (h : e.isChain = false) (S : Setting)
    (inner : Evaluators) (env : Env) :
    Eval.evalChain S inner env e = some <$> inner.eval env e := by
  cases e with
  | member _ _ _ | index _ _ _ | call _ _ _ => cases h
  | _ => rfl

/-! ## 2. Chains that are ended -/

variable {α β : Type} {S : Setting} {env : Env} {m m' left : Machine} {e e' : Expr}

/-- How a chain is run with the variables of a machine: it gives what is asked for, or no step or no
level was left. -/
inductive EndsAs (P : Option Value → Prop) (left : Machine) :
    EStateM.Result Error Machine (Option Value) → Prop
  | ok {v? : Option Value} (h : P v?) {n : Machine} (heap : n.heap = left.heap)
      (escapes : n.escapes = left.escapes) : EndsAs P left (.ok v? n)
  | cut {e : Error} (he : e.isOfDescent) (n : Machine) : EndsAs P left (.error e n)

theorem EndsAs.stepped {P : Option Value → Prop} {r : Run (Option Value)}
    (h : EndsAs P left (r m'.entered)) : EndsAs P left (stepped S r m') := by
  unfold Snippet.stepped
  split
  · exact .cut rfl _
  · split
    · exact .cut rfl _
    · generalize r m'.entered = x at h
      cases h with
      | ok h heap escapes => exact .ok h heap escapes
      | cut he n => exact .cut he _

/-- What follows a chain decides how the two end together. -/
theorem EndsAs.bind {P Q : Option Value → Prop} {r : Run (Option Value)}
    {f : Option Value → Run (Option Value)} (h : EndsAs P left (r m'))
    (hf : ∀ v?, P v? → ∃ w?, Q w? ∧ f v? = pure w?) : EndsAs Q left ((r >>= f) m') := by
  generalize hx : r m' = x at h
  cases h with
  | ok h heap escapes =>
    obtain ⟨w?, hw, hpure⟩ := hf _ h
    rw [Run.bind_ok hx, hpure]
    exact .ok hw heap escapes
  | cut he n =>
    rw [Run.bind_error hx]
    exact .cut he n

/-- A chain was ended: it has no value. -/
abbrev Ended : Machine → EStateM.Result Error Machine (Option Value) → Prop := EndsAs (· = none)

/-- What would follow a chain that was ended is not run. -/
theorem Ended.bind_eq {r : Run (Option Value)} {f : Option Value → Run (Option Value)}
    (h : Ended left (r m')) (hf : f none = pure none) : (r >>= f) m' = r m' := by
  generalize hx : r m' = x at h
  cases h with
  | ok h heap escapes =>
    subst h
    rw [Run.bind_ok hx, hf]
    rfl
  | cut he n => exact Run.bind_error hx f

/-- Chains that, from all machines further in than `m`, are ended in one way, with the variables of
`left`. -/
def EndAlike (S : Setting) (env : Env) (m left : Machine) (e e' : Expr) : Prop :=
  ∀ m', m.Deeper m' →
    Ended left (Eval.evalChain S (Eval.within S m'.nesting) env e m') ∧
      Eval.evalChain S (Eval.within S m'.nesting) env e m' =
        Eval.evalChain S (Eval.within S m'.nesting) env e' m'

/-- Objects of links that end the chain, from all machines further in than `m`. -/
def LinkAlike (S : Setting) (env : Env) (m left : Machine) (guarded : Bool) (e e' : Expr) : Prop :=
  ∀ m', m.Deeper m' →
    Ended left (Eval.linkTarget (Eval.within S m'.nesting) env e guarded m') ∧
      Eval.linkTarget (Eval.within S m'.nesting) env e guarded m' =
        Eval.linkTarget (Eval.within S m'.nesting) env e' guarded m'

/-- A chain that was ended ends the link behind it. -/
theorem EndAlike.link (h : EndAlike S env m left e e') (guarded : Bool) :
    LinkAlike S env m left guarded e e' := by
  intro m' hm
  obtain ⟨hended, heq⟩ := h m'.entered hm.entered
  have htarget : Ended left ((Eval.within S m'.nesting).target env e m') := by
    rw [target_apply]
    exact hended.stepped
  have hsame : (Eval.within S m'.nesting).target env e m' =
      (Eval.within S m'.nesting).target env e' m' := by
    rw [target_apply, target_apply]
    exact stepped_congr heq
  have htarget' : Ended left ((Eval.within S m'.nesting).target env e' m') := hsame ▸ htarget
  have hlink (e : Expr) (h : Ended left ((Eval.within S m'.nesting).target env e m')) :
      Eval.linkTarget (Eval.within S m'.nesting) env e guarded m' =
        (Eval.within S m'.nesting).target env e m' :=
    h.bind_eq (f := fun v? => pure (v?.filter fun v => !(guarded && v.isNullish))) rfl
  rw [hlink e htarget, hlink e' htarget']
  exact ⟨htarget, hsame⟩

/-- Chains that begin with the object of a link, and that are over when it ends the chain. -/
def BeginsWith (S : Setting) (env : Env) (guarded : Bool) (e k : Expr) : Prop :=
  ∀ inner, ∃ f : Option Value → Run (Option Value), f none = pure none ∧
    Eval.evalChain S inner env k = Eval.linkTarget inner env e guarded >>= f

theorem beginsWith_member (e : Expr) (name : String) (guarded : Bool) :
    BeginsWith S env guarded e (.member e name guarded) := by
  intro inner
  rw [Eval.evalChain]
  refine ⟨_, ?_, rfl⟩
  rfl

theorem beginsWith_index (e key : Expr) (guarded : Bool) :
    BeginsWith S env guarded e (.index e key guarded) := by
  intro inner
  rw [Eval.evalChain]
  refine ⟨_, ?_, rfl⟩
  rfl

theorem beginsWith_method (e : Expr) (name : String) (args : List Expr)
    (guarded guardedCall : Bool) :
    BeginsWith S env guarded e (.call (.member e name guarded) args guardedCall) := by
  intro inner
  rw [Eval.evalChain]
  refine ⟨_, ?_, rfl⟩
  rfl

/-- What begins with the object of a link that ends the chain is ended. -/
theorem LinkAlike.endAlike {guarded : Bool} (h : LinkAlike S env m left guarded e e')
    {k k' : Expr} (hk : BeginsWith S env guarded e k) (hk' : BeginsWith S env guarded e' k') :
    EndAlike S env m left k k' := by
  intro m' hm
  obtain ⟨hended, heq⟩ := h m' hm
  have hended' : Ended left (Eval.linkTarget (Eval.within S m'.nesting) env e' guarded m') :=
    heq ▸ hended
  obtain ⟨f, hf, hchain⟩ := hk (Eval.within S m'.nesting)
  obtain ⟨f', hf', hchain'⟩ := hk' (Eval.within S m'.nesting)
  rw [hchain, hchain', hended.bind_eq hf, hended'.bind_eq hf']
  exact ⟨hended, heq⟩

/-- A call whose callee was ended is ended.  The callee is no member of anything, as a method is
called on its object. -/
theorem EndAlike.call (h : EndAlike S env m left e e')
    (he : ∀ object name guarded, e ≠ .member object name guarded)
    (he' : ∀ object name guarded, e' ≠ .member object name guarded) (args args' : List Expr)
    (guarded : Bool) : EndAlike S env m left (.call e args guarded) (.call e' args' guarded) := by
  intro m' hm
  obtain ⟨hended, heq⟩ := h m' hm
  have hended' : Ended left (Eval.evalChain S (Eval.within S m'.nesting) env e' m') := heq ▸ hended
  have hcall {e : Expr} (he : ∀ object name guarded, e ≠ .member object name guarded)
      (h : Ended left (Eval.evalChain S (Eval.within S m'.nesting) env e m')) (args : List Expr) :
      Eval.evalChain S (Eval.within S m'.nesting) env (.call e args guarded) m' =
        Eval.evalChain S (Eval.within S m'.nesting) env e m' := by
    rw [Eval.evalChain.eq_4 _ _ _ _ _ _ he]
    refine h.bind_eq ?_
    rfl
  rw [hcall he hended, hcall he' hended']
  exact ⟨hended, heq⟩

/-- Chains that are ended, and calls of which are. -/
structure Closed (S : Setting) (env : Env) (m left : Machine) (e e' : Expr) : Prop where
  chain : EndAlike S env m left e e'
  call : ∀ args args' guarded, EndAlike S env m left (.call e args guarded) (.call e' args' guarded)

namespace LinkAlike

variable {guarded : Bool} (h : LinkAlike S env m left guarded e e')
include h

theorem member (name : String) :
    Closed S env m left (.member e name guarded) (.member e' name guarded) where
  chain := h.endAlike (beginsWith_member _ _ _) (beginsWith_member _ _ _)
  call _ _ _ := h.endAlike (beginsWith_method _ _ _ _ _) (beginsWith_method _ _ _ _ _)

theorem index (key key' : Expr) :
    Closed S env m left (.index e key guarded) (.index e' key' guarded) := by
  have hchain : EndAlike S env m left (.index e key guarded) (.index e' key' guarded) :=
    h.endAlike (beginsWith_index _ _ _) (beginsWith_index _ _ _)
  exact ⟨hchain, hchain.call nofun nofun⟩

end LinkAlike

/-- A chain that was ended stays so with any link behind it. -/
theorem Closed.onto (h : Closed S env m left e e') (l : Link) :
    Closed S env m left (l.onto e) (l.bare.onto e') := by
  cases l with
  | member name guarded => exact (h.chain.link guarded).member name
  | index key guarded => exact (h.chain.link guarded).index key .null
  | call args guarded =>
    exact ⟨h.call args [] guarded, (h.call args [] guarded).call nofun nofun⟩

theorem Closed.linked (h : Closed S env m left e e') (links : List Link) :
    Closed S env m left (Snippet.linked e links) (Snippet.linked e' (links.map Link.bare)) := by
  induction links generalizing e e' with
  | nil => exact h
  | cons l rest ih => exact ih (h.onto l)

/-! ## 3. Targets that are null or undefined -/

/-- An expression that has a value has the same value as the head of a chain, further in, unless no
step or no level is left there. -/
theorem evalChain_of_runExpr {v : Value} (hrun : runExpr S env e m = .ok v left)
    (hm : m.Deeper m') :
    EndsAs (fun v? => v?.getD .undefined = v) left
      (Eval.evalChain S (Eval.within S m'.entered.nesting) env e m'.entered) := by
  rw [runExpr_apply] at hrun
  cases hchain : e.isChain with
  | true =>
    -- the chain itself is compared with the one further in
    rw [eval_apply] at hrun
    obtain ⟨n, hbody, rfl⟩ := eq_ok_of_stepped hrun
    rw [evalBody_of_isChain hchain] at hbody
    obtain ⟨v?, n', hv, hpure⟩ := Run.eq_ok_of_bind hbody
    cases hpure
    have hdeeper := (goingDeeper_within S hm.entered_both).evalChain env e _ _ hm.entered_both
    rw [hv] at hdeeper
    generalize Eval.evalChain S (Eval.within S m'.entered.nesting) env e m'.entered = y at hdeeper
    cases hdeeper with
    | ok _ hn =>
      refine .ok ?_ hn.heap hn.escapes
      rfl
    | cut he _ n => exact .cut he n
  | false =>
    -- any other head is evaluated as an expression, once more further in
    rw [evalChain_of_not_isChain hchain]
    have hdeeper := (goingDeeper_within S hm.entered).eval env e _ _ hm.entered
    rw [hrun] at hdeeper
    rw [map_eq_pure_bind]
    generalize hy : (Eval.within S m'.entered.nesting).eval env e m'.entered = y at hdeeper
    cases hdeeper with
    | ok _ hn =>
      rw [Run.bind_ok hy]
      refine .ok ?_ hn.heap hn.escapes
      rfl
    | cut he _ n =>
      rw [Run.bind_error hy]
      exact .cut he n

/-- A target that is null or undefined ends the chain at a guarded link. -/
theorem linkAlike_of_runExpr {v : Value} (hrun : runExpr S env e m = .ok v left)
    (hv : v.isNullish) : LinkAlike S env m left true e e := by
  intro m' hm
  have htarget : EndsAs (fun v? => v?.getD .undefined = v) left
      ((Eval.within S m'.nesting).target env e m') := by
    rw [target_apply]
    exact (evalChain_of_runExpr hrun hm).stepped
  refine ⟨htarget.bind fun v? hget => ⟨_, ?_, rfl⟩, rfl⟩
  cases v? with
  | none => rfl
  | some w =>
    -- the value of the target is the one that is filtered out
    obtain rfl : w = v := hget
    simp [Option.filter, hv]

theorem runExpr_of_isChain (he : e.isChain = true) :
    runExpr S env e m =
      stepped S (do
        return (← Eval.evalChain S (Eval.within S m.entered.nesting) env e).getD .undefined) m := by
  rw [runExpr_apply, eval_apply, evalBody_of_isChain he]

/-- A chain that was ended is undefined. -/
theorem runExpr_of_ended (he : e.isChain = true)
    (h : Ended left (Eval.evalChain S (Eval.within S m.entered.nesting) env e m.entered)) :
    (∃ n, runExpr S env e m = .ok .undefined n ∧ n.heap = left.heap ∧ n.escapes = left.escapes) ∨
      ∃ err n, runExpr S env e m = .error err n ∧ err.isOfDescent := by
  rw [runExpr_of_isChain he]
  unfold Snippet.stepped
  split
  · exact .inr ⟨_, _, rfl, rfl⟩
  · split
    · exact .inr ⟨_, _, rfl, rfl⟩
    · generalize hx : Eval.evalChain S (Eval.within S m.entered.nesting) env e m.entered = x at h
      cases h with
      | ok h heap escapes =>
        subst h
        rw [Run.bind_ok hx]
        exact .inl ⟨_, rfl, heap, escapes⟩
      | cut hdescent n =>
        rw [Run.bind_error hx]
        exact .inr ⟨_, _, rfl, hdescent⟩

theorem runExpr_congr_of_isChain (he : e.isChain = true) (he' : e'.isChain = true)
    (h : Eval.evalChain S (Eval.within S m.entered.nesting) env e m.entered =
      Eval.evalChain S (Eval.within S m.entered.nesting) env e' m.entered) :
    runExpr S env e m = runExpr S env e' m := by
  rw [runExpr_of_isChain he, runExpr_of_isChain he']
  apply stepped_congr
  show EStateM.bind _ _ _ = EStateM.bind _ _ _
  unfold EStateM.bind
  rw [h]

/-- Where what stands before a guarded member or index is null or undefined, the chain is undefined
whatever links follow, without a change of a variable, or the evaluation meets the end of the steps
or of the levels.  The keys and the arguments that follow do not matter, as none is evaluated. -/
theorem runExpr_linked_of_nullish {v : Value} {l : Link} (hrun : runExpr S env e m = .ok v left)
    (hv : v.isNullish) (hl : l.endsChain) (rest : List Link) :
    ((∃ n, runExpr S env (linked e (l :: rest)) m = .ok .undefined n ∧ n.heap = left.heap ∧
          n.escapes = left.escapes) ∨
        ∃ err n, runExpr S env (linked e (l :: rest)) m = .error err n ∧ err.isOfDescent) ∧
      runExpr S env (linked e (l :: rest)) m =
        runExpr S env (linked e ((l :: rest).map Link.bare)) m := by
  have hlink : LinkAlike S env m left true e e := linkAlike_of_runExpr hrun hv
  have hfirst : Closed S env m left (l.onto e) (l.bare.onto e) := by
    cases l with
    | member name guarded =>
      obtain rfl : guarded = true := hl
      exact hlink.member name
    | index key guarded =>
      obtain rfl : guarded = true := hl
      exact hlink.index key .null
    | call args guarded => cases hl
  obtain ⟨hended, heq⟩ := (hfirst.linked rest).chain m.entered (Machine.Deeper.refl m).entered
  constructor
  · exact runExpr_of_ended (isChain_linked e l rest) hended
  · exact runExpr_congr_of_isChain (isChain_linked e l rest)
      (isChain_linked e l.bare (rest.map Link.bare)) heq

/-- A field that an object does not have. -/
def absent : Expr := .member (.object []) "a" false

/-- A machine without a variable. -/
def noVariables : Machine where
  heap := { scopes := #[⟨[], none⟩] }

theorem runExpr_absent :
    ∃ v n, runExpr {} ⟨0, 0⟩ absent noVariables = .ok v n ∧ v.isNullish = true := by
  have hok : ((runExpr {} ⟨0, 0⟩ absent).gave? noVariables).any Value.isNullish = true := by
    decide +kernel
  exact Run.eq_ok_of_gave? hok

/-- The theorem for a chain of which a key and an argument are variables that are not bound. -/
theorem runExpr_linked_of_absent :
    ∃ v m, runExpr {} ⟨0, 0⟩ absent noVariables = .ok v m ∧ v.isNullish ∧
      (Link.member "b" true).endsChain ∧
      ∃ n, runExpr {} ⟨0, 0⟩
        (linked absent [.member "b" true, .index (.ident "k") false, .call [.ident "x"] false])
        noVariables = .ok .undefined n ∧ n.heap = m.heap := by
  obtain ⟨v, m, hrun, hv⟩ := runExpr_absent
  refine ⟨v, m, hrun, hv, rfl, ?_⟩
  let rest : List Link := [.index (.ident "k") false, .call [.ident "x"] false]
  have hok : ((runExpr {} ⟨0, 0⟩ (linked absent (.member "b" true :: rest))).gave?
      noVariables).any (fun _ => true) = true := by decide +kernel
  obtain ⟨w, n, hresult, -⟩ := Run.eq_ok_of_gave? hok
  obtain ⟨⟨n', h, hheap, -⟩ | ⟨e, n', h, -⟩, -⟩ :=
    runExpr_linked_of_nullish (l := .member "b" true) hrun hv rfl rest
  · exact ⟨n', h, hheap⟩
  · cases hresult.symm.trans h

end TraceViewer.Snippet
