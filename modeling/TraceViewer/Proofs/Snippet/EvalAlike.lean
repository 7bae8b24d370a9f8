import TraceViewer.Proofs.Snippet.MethodAlike

/-!
# Snippets side by side

The main theorem on two runs: `levelsAlike` says that the same code, in scopes that stand for each
other, runs alike under both settings at every level of nesting.  It goes by the levels; within a
level each expression and statement is its parts run one after the other.
-/

namespace TraceViewer.Snippet

theorem bindParams_alike {ρ : Renaming} (params : List String) {args args' : List Value}
    (h : ItemsAlike ρ args args') :
    FieldsAlike ρ (Eval.bindParams params args) (Eval.bindParams params args') := by
  have hall : ItemsAlike ρ (args ++ List.replicate params.length .undefined)
      (args' ++ List.replicate params.length .undefined) :=
    List.rel_append h (ItemsAlike.plain fun v hv => by rw [List.eq_of_mem_replicate hv]; rfl)
  unfold Eval.bindParams
  suffices hfold : ∀ (names : List String) {vs vs' : List Value} {acc acc' : Fields Value},
      ItemsAlike ρ vs vs' → FieldsAlike ρ acc acc' →
      FieldsAlike ρ ((names.zip vs).foldl (fun vars p => setVar p.1 p.2 vars) acc)
        ((names.zip vs').foldl (fun vars p => setVar p.1 p.2 vars) acc') from
    hfold params hall .nil
  intro names
  induction names with
  | nil => exact fun _ hacc => hacc
  | cons name rest ih =>
    intro vs vs' acc acc' hvs hacc
    cases hvs with
    | nil => exact hacc
    | cons hv hvs => exact ih hvs (setVar_rel hv hacc name)

namespace SideBySide

variable {S S' : Setting} {w : SideBySide S S'}

/-! ## 1. What runs of each kind give -/

abbrev Lists (w : SideBySide S S') : List Value → List Value → Prop := ItemsAlike w.ρ

abbrev Options (w : SideBySide S S') : Option Value → Option Value → Prop := OptionAlike w.ρ

/-- Statements that end alike. -/
inductive Flows (w : SideBySide S S') : Flow → Flow → Prop
  | normal : Flows w .normal .normal
  | return {v v' : Value} (h : Value.Alike w.ρ v v') : Flows w (.return v) (.return v')
  | leave : Flows w .leave .leave
  | continue : Flows w .continue .continue

theorem Flows.holdsClosure_eq {f f' : Flow} (h : Flows w f f') :
    f.returned.any Value.holdsClosure = f'.returned.any Value.holdsClosure := by
  cases h with
  | «return» h => exact Value.holdsClosure_eq h
  | _ => rfl

/-- Only a flow that hands on a closure depends on which scopes stand for each other. -/
theorem Flows.settle {v : SideBySide S S'} {f f' : Flow} (h : Flows w f f')
    (hm : w.ρ.mark = v.ρ.mark) (hs : w.ρ.source = v.ρ.source)
    (hc : f.returned.any Value.holdsClosure = true → w.ρ = v.ρ) : Flows v f f' := by
  cases h with
  | «return» h => exact .return (Value.Alike.settle h hm hs hc)
  | normal => exact .normal
  | leave => exact .leave
  | «continue» => exact .continue

theorem Flows.returned {f f' : Flow} (h : Flows w f f') :
    OptionAlike w.ρ f.returned f'.returned := by
  cases h with
  | «return» h => exact .some h
  | _ => exact .none

/-- What the object of a link gives: when it is a name, what the variable of that name holds. -/
def Targets (env' : Env) (e : Expr) (w : SideBySide S S') (x x' : Option Value) : Prop :=
  OptionAlike w.ρ x x' ∧ ∀ name target, e = .ident name → x' = some target →
    ∀ found, w.right.heap.find? env'.scope name = some found → target = found.2

/-- What can be run with a number of levels left runs alike in scopes that stand for each other. -/
structure EvaluatorsAlike (S S' : Setting) (inner inner' : Evaluators) : Prop where
  eval : ∀ (w : SideBySide S S') {env env' : Env}, EnvAlike w env env' → ∀ e,
    Runs none w Values (inner.eval env e) (inner'.eval env' e)
  ident : ∀ (w : SideBySide S S') {env env' : Env}, EnvAlike w env env' → ∀ name,
    Runs none w (Held env' name) (inner.eval env (.ident name)) (inner'.eval env' (.ident name))
  target : ∀ (w : SideBySide S S') {env env' : Env}, EnvAlike w env env' → ∀ e,
    Runs none w (Targets env' e) (inner.target env e) (inner'.target env' e)
  exec : ∀ (w : SideBySide S S') {env env' : Env}, EnvAlike w env env' → ∀ s,
    Runs (some env'.scope) w Flows (inner.exec env s) (inner'.exec env' s)

variable {inner inner' : Evaluators} (hinner : EvaluatorsAlike S S' inner inner')
include hinner

/-! ## 2. Statements in sequence -/

omit hinner in
theorem Runs.hoist {env env' : Env} (henv : EnvAlike w env env') (body : List Stmt) :
    Runs (some env'.scope) w (fun _ _ _ => True) (Eval.hoist env body) (Eval.hoist env' body) := by
  induction body generalizing w with
  | nil => exact .pure trivial
  | cons s rest ih =>
    cases s with
    | function f =>
      unfold Eval.hoist
      dsimp only
      split
      · refine Runs.bind (.closure henv f) fun v x x' hv hx => ?_
        have henv := henv.mono hv.le
        refine Runs.andThen (.declare henv _ hx) fun u _ _ hu _ => ih (henv.mono hu.le)
      · exact ih henv
    | _ => exact ih henv

theorem Runs.execAll {env env' : Env} (henv : EnvAlike w env env') (body : List Stmt) :
    Runs (some env'.scope) w Flows (Eval.execAll inner env body)
      (Eval.execAll inner' env' body) := by
  induction body generalizing w with
  | nil => exact .pure .normal
  | cons s rest ih =>
    unfold Eval.execAll
    refine Runs.andThen (hinner.exec w henv s) fun v f f' hv hf => ?_
    cases hf with
    | normal => exact ih (henv.mono hv.le)
    | «return» h => exact .pure (.return h)
    | leave => exact .pure .leave
    | «continue» => exact .pure .continue

theorem Runs.execBlock {env env' : Env} (henv : EnvAlike w env env') (body : List Stmt) :
    Runs (some env'.scope) w Flows (Eval.execBlock inner env body)
      (Eval.execBlock inner' env' body) :=
  Runs.andThen (.hoist henv body) fun _ _ _ hv _ => .execAll hinner (henv.mono hv.le) body

/-! ## 3. Calls -/

theorem Runs.runBody {env env' : Env} (henv : EnvAlike w env env') (body : Body) :
    Runs (some env'.scope) w Values (Eval.runBody inner env body)
      (Eval.runBody inner' env' body) := by
  cases body with
  | expr e => exact Ends.widen (hinner.eval w henv e)
  | block body =>
    refine Runs.andThen (.execBlock hinner henv body) fun v f f' hv hf => ?_
    cases hf with
    | «return» h => exact .pure h
    | _ => exact .pure (.plain rfl)

theorem Runs.callClosure (hS : S.limits.Within S'.limits) {i i' s s' : Nat} (f : Function)
    (hi : w.ρ.scope i i') (hs : w.ρ.source s s') {args args' : List Value}
    (hargs : ItemsAlike w.ρ args args') :
    Runs none w Values (Eval.callClosure S inner ⟨f, i, s⟩ args)
      (Eval.callClosure S' inner' ⟨f, i', s'⟩ args') := by
  refine Runs.counted (Q := Values) (fun v u a b h hρ _ => ?_) (fun v hv => ?_) hS
  · unfold Values at h ⊢
    rw [← hρ]
    exact h
  refine Runs.inScope (hv.le.source _ _ hs) (hv.le.scope _ _ hi)
    (bindParams_alike f.params (hargs.mono hv.le)) ?_ ?_ ?_
  · exact fun v a b h => Value.holdsClosure_eq h
  · exact fun v u a b h hm hs hc => Value.Alike.settle h hm hs hc
  · exact fun u j j' hu henv => .runBody hinner henv f.body

theorem Runs.call (hS : S.limits.Within S'.limits) {callee callee' : Value}
    (h : Value.Alike w.ρ callee callee') {args args' : List Value}
    (hargs : ItemsAlike w.ρ args args') :
    Runs none w Values (Eval.call S inner callee args) (Eval.call S' inner' callee' args') := by
  cases h with
  | plain hv =>
    cases callee with
    | builtin b => exact .pure (hargs.applyBuiltin b)
    | closure _ _ => cases hv
    | _ => exact .mistyped _
  | closure _ hi hs => exact .callClosure hinner hS _ hi hs hargs
  | _ => exact .mistyped _

theorem callsAlike (hS : S.limits.Within S'.limits) :
    CallsAlike S S' (Eval.call S inner) (Eval.call S' inner') :=
  fun _ _ _ _ _ hf hargs => .call hinner hS hf hargs

/-! ## 4. Expressions -/

theorem Runs.evalAll {env env' : Env} (henv : EnvAlike w env env') (es : List Expr) :
    Runs none w Lists (Eval.evalAll inner env es) (Eval.evalAll inner' env' es) := by
  induction es generalizing w with
  | nil => exact .pure .nil
  | cons e rest ih =>
    unfold Eval.evalAll
    refine Runs.bind (hinner.eval w henv e) fun v x x' hv hx => ?_
    refine Runs.bind (ih (henv.mono hv.le)) fun u xs xs' hu hxs => ?_
    exact .pure (.cons (hx.mono hu.le) hxs)

theorem Runs.evalEntries {env env' : Env} (henv : EnvAlike w env env') {acc acc' : Fields Value}
    (hacc : FieldsAlike w.ρ acc acc') (entries : List (String × Expr)) :
    Runs none w (fun v => FieldsAlike v.ρ) (Eval.evalEntries inner env acc entries)
      (Eval.evalEntries inner' env' acc' entries) := by
  induction entries generalizing w acc acc' with
  | nil => exact .pure hacc
  | cons entry rest ih =>
    obtain ⟨key, e⟩ := entry
    unfold Eval.evalEntries
    refine Runs.bind (hinner.eval w henv e) fun v x x' hv hx => ?_
    exact ih (henv.mono hv.le) ((hacc.mono hv.le).set hx key)

theorem Runs.evalTemplate {env env' : Env} (henv : EnvAlike w env env') (acc : String)
    (parts : List String) (holes : List Expr) :
    Runs none w (fun _ => Eq) (Eval.evalTemplate inner env acc parts holes)
      (Eval.evalTemplate inner' env' acc parts holes) := by
  induction parts generalizing w acc holes with
  | nil => cases holes <;> exact .pure rfl
  | cons part parts ih =>
    cases holes with
    | nil => exact .pure rfl
    | cons e holes =>
      unfold Eval.evalTemplate
      refine Runs.bind (hinner.eval w henv e) fun v x x' hv hx => ?_
      rw [Value.display_eq hx]
      exact ih (henv.mono hv.le) _ holes

omit hinner in
theorem settles_eq {ρ : Renaming} (op : LogicalOp) {v v' : Value} (h : Value.Alike ρ v v') :
    Eval.settles op v = Eval.settles op v' := by
  unfold Eval.settles
  rw [Value.truthy_eq h, Value.isNullish_eq h]

omit hinner in
theorem lacksMethod_eq {ρ : Renaming} {v v' : Value} (h : Value.Alike ρ v v') (name : String) :
    Eval.lacksMethod v name = Eval.lacksMethod v' name := by
  cases h with
  | object _ hf =>
    have hl := hf.lookup name
    unfold Eval.lacksMethod
    dsimp only
    generalize List.lookup name _ = x at hl
    generalize List.lookup name _ = x' at hl
    cases hl with
    | none => rfl
    | some h => exact Value.isNullish_eq h
  | _ => rfl

theorem Runs.linkTarget {env env' : Env} (henv : EnvAlike w env env') (object : Expr)
    (guarded : Bool) :
    Runs none w (Targets env' object) (Eval.linkTarget inner env object guarded)
      (Eval.linkTarget inner' env' object guarded) := by
  unfold Eval.linkTarget
  refine Runs.bind (hinner.target w henv object) ?_
  rintro v x x' hv ⟨hx, hname⟩
  refine .pure ⟨?_, fun name target hobject htarget found hfound => ?_⟩
  · cases hx with
    | none => exact .none
    | some h =>
      rw [Option.filter_some, Option.filter_some, Value.isNullish_eq h]
      split
      · exact .some h
      · exact .none
  · exact hname name target hobject (Option.eq_some_of_filter_eq_some htarget) found hfound

/-- A method call, as seen from `base`, where the object of the link was found. -/
theorem RunsFrom.callMethod (hS : S.limits.Within S'.limits) {base : SideBySide S S'}
    (hw : Leads none base w) {env env' : Env} (henv : EnvAlike base env env') (object : Expr)
    {target target' : Value} (htarget : Targets env' object base (some target) (some target'))
    (name : String) {args args' : List Value} (hargs : ItemsAlike w.ρ args args') :
    RunsFrom none base w Values (Eval.callMethod S inner env object target name args)
      (Eval.callMethod S' inner' env' object target' name args') := by
  obtain ⟨halike, hheld⟩ := htarget
  have halike : Value.Alike base.ρ target target' := by
    cases halike with
    | some h => exact h
  have hmethod := Runs.method hS (callsAlike hinner hS) Regex.engine (halike.mono hw.le) name hargs
  have hmethod := hmethod.from hw
  unfold Eval.callMethod
  cases object with
  | ident variableName =>
    cases halike with
    | array hm ht =>
      dsimp only
      split
      · refine .push hw henv (ItemsAlike.mono hw.le ht) hargs fun found hfound => ?_
        rw [← hheld variableName _ rfl rfl found hfound]
        exact List.Subset.refl _
      · exact hmethod
    | plain hv =>
      cases target with
      | array _ _ => cases hv
      | _ => exact hmethod
    | _ => exact hmethod
  | _ => exact hmethod

omit hinner in
theorem Runs.linked {r r' : Run Value} (h : Runs none w Values r r') :
    Runs none w Options (some <$> r) (some <$> r') :=
  Runs.bind h fun _ _ _ _ hx => .pure (.some hx)

theorem Runs.evalChain (hS : S.limits.Within S'.limits) {env env' : Env}
    (henv : EnvAlike w env env') (e : Expr) :
    Runs none w Options (Eval.evalChain S inner env e) (Eval.evalChain S' inner' env' e) := by
  induction e using Eval.evalChain.induct generalizing w with
  | case1 object name guarded =>
    rw [Eval.evalChain, Eval.evalChain]
    refine Runs.bind (.linkTarget hinner henv object guarded) ?_
    rintro v x x' hv ⟨hx, _⟩
    cases hx with
    | none => exact .pure .none
    | some h => exact .linked (.property h name)
  | case2 object key guarded =>
    rw [Eval.evalChain, Eval.evalChain]
    refine Runs.bind (.linkTarget hinner henv object guarded) ?_
    rintro v x x' hv ⟨hx, _⟩
    cases hx with
    | none => exact .pure .none
    | some h =>
      refine Runs.bind (hinner.eval v (henv.mono hv.le) key) fun u k k' hu hk => ?_
      exact .linked (.keyed (h.mono hu.le) hk)
  | case3 object name memberGuarded args guarded =>
    rw [Eval.evalChain, Eval.evalChain]
    refine Runs.bind (.linkTarget hinner henv object memberGuarded) fun v x x' hv hx => ?_
    have henv := henv.mono hv.le
    -- a method may push onto the variable that its target was read from, so what is known of the
    -- target is kept from where the link was evaluated to the call
    cases x with
    | none => cases hx.1; exact .pure .none
    | some target =>
      cases x' with
      | none => cases hx.1
      | some target' =>
        have halike : Value.Alike v.ρ target target' := by cases hx.1; assumption
        dsimp only
        rw [lacksMethod_eq halike]
        split
        · exact .pure .none
        · refine RunsFrom.after (.refl _ v) (.evalAll hinner henv args) fun u as as' hu has => ?_
          exact RunsFrom.bind (.callMethod hinner hS hu henv object hx name has)
            fun t y y' ht hy => .ok t ht (.some hy)
  | case4 callee args guarded hcallee ih =>
    rw [Eval.evalChain.eq_4 _ _ _ _ _ _ hcallee, Eval.evalChain.eq_4 _ _ _ _ _ _ hcallee]
    refine Runs.bind (ih henv) fun v x x' hv hx => ?_
    have henv := henv.mono hv.le
    cases hx with
    | none => exact .pure .none
    | some hf =>
      dsimp only
      rw [Value.isNullish_eq hf]
      split
      · exact .pure .none
      · refine Runs.bind (.evalAll hinner henv args) fun u as as' hu has => ?_
        rw [Value.isCallable_eq hf]
        split
        · exact .linked (.call hinner hS (hf.mono hu.le) has)
        · exact .mistyped _
  | case5 e hmember hindex hmethod hcall =>
    rw [Eval.evalChain.eq_5 _ _ _ _ hmember hindex hmethod hcall,
      Eval.evalChain.eq_5 _ _ _ _ hmember hindex hmethod hcall]
    exact .linked (hinner.eval w henv e)

theorem Runs.evalTarget (hS : S.limits.Within S'.limits) {env env' : Env}
    (henv : EnvAlike w env env') (e : Expr) :
    Runs none w (Targets env' e) (Eval.evalChain S inner env e)
      (Eval.evalChain S' inner' env' e) := by
  -- only a name is a variable that can be pushed onto; of any other target there is nothing to say
  cases e with
  | ident name =>
    refine Runs.bind (hinner.ident w henv name) ?_
    rintro v x x' hv ⟨hx, hheld⟩
    refine .pure ⟨.some hx, fun _ target hname htarget => ?_⟩
    cases hname
    cases htarget
    exact hheld
  | _ =>
    refine Ends.imp (Runs.evalChain hinner hS henv _) fun v x x' _ hx => ⟨hx, ?_⟩
    intro _ _ hname
    cases hname

omit hinner in
/-- Assigning what was computed. -/
theorem Runs.storing {env env' : Env} (henv : EnvAlike w env env') (name : String)
    {x x' y y' : Value} (hx : Value.Alike w.ρ x x') (hy : Value.Alike w.ρ y y') :
    Runs none w Values
      (do
        Eval.store env name x
        return y)
      (do
        Eval.store env' name x'
        return y') :=
  Runs.bind (.store henv name hx) fun _ _ _ hv _ => .pure (hy.mono hv.le)

theorem Runs.evalBody (hS : S.limits.Within S'.limits) {env env' : Env}
    (henv : EnvAlike w env env') (e : Expr) :
    Runs none w Values (Eval.evalBody S inner env e) (Eval.evalBody S' inner' env' e) := by
  cases e with
  | number _ | text _ | bool _ | null | undefined => exact .pure (.plain rfl)
  | pattern p => exact .pure (.pattern henv.source)
  | ident name => exact Ends.imp (Runs.lookup henv name) fun _ _ _ _ h => h.1
  | array items => exact Runs.bind (.evalAll hinner henv items) fun _ _ _ _ h => .newArray h
  | object entries =>
    exact Runs.bind (.evalEntries hinner henv .nil entries) fun _ _ _ _ h => .newObject h
  | template parts holes =>
    refine Runs.bind (.evalTemplate hinner henv "" parts holes) ?_
    rintro v x _ hv rfl
    exact .pure (.plain rfl)
  | unary op e =>
    have hunary : Runs none w Values (do return (← inner.eval env e).applyUnary op)
        (do return (← inner'.eval env' e).applyUnary op) :=
      Runs.bind (hinner.eval w henv e) fun _ _ _ _ h => .pure (h.applyUnary op)
    cases op with
    | kindOf =>
      cases e with
      | ident name =>
        refine Runs.bind (.isBound henv name) ?_
        rintro v b _ hv rfl
        cases b with
        | false => exact .pure (.plain rfl)
        | true =>
          refine Runs.bind (.lookup (henv.mono hv.le) name) fun _ _ _ _ h => .pure ?_
          exact .of_eq_plain (congrArg Value.text (Value.kindOf_eq h.1)) rfl
      | _ => exact hunary
    | _ => exact hunary
  | binary op l r =>
    refine Runs.bind (hinner.eval w henv l) fun v a a' hv ha => ?_
    refine Runs.bind (hinner.eval v (henv.mono hv.le) r) fun u b b' hu hb => ?_
    exact .pure ((ha.mono hu.le).applyBinary u.heap.faithful op hb)
  | logical op l r =>
    refine Runs.bind (hinner.eval w henv l) fun v a a' hv ha => ?_
    rw [settles_eq op ha]
    split
    · exact .pure ha
    · exact hinner.eval v (henv.mono hv.le) r
  | cond test yes no =>
    refine Runs.bind (hinner.eval w henv test) fun v a a' hv ha => ?_
    rw [Value.truthy_eq ha]
    split
    · exact hinner.eval v (henv.mono hv.le) yes
    · exact hinner.eval v (henv.mono hv.le) no
  | assign name op e =>
    cases op with
    | none =>
      refine Runs.bind (hinner.eval w henv e) fun v x x' hv hx => ?_
      exact .storing (henv.mono hv.le) name hx hx
    | some op =>
      refine Runs.bind (.lookup henv name) ?_
      rintro v a a' hv ⟨ha, _⟩
      refine Runs.bind (hinner.eval v (henv.mono hv.le) e) fun u b b' hu hb => ?_
      have hx := (ha.mono hu.le).applyBinary u.heap.faithful op hb
      exact .storing (henv.mono (hv.le.trans hu.le)) name hx hx
  | update name increment before =>
    refine Runs.bind (.lookup henv name) ?_
    rintro v x x' hv ⟨hx, _⟩
    dsimp only
    rw [Value.toNumber_eq hx]
    exact .storing (henv.mono hv.le) name (.plain rfl) (.plain rfl)
  | function f => exact .closure henv f
  | member object property guarded =>
    exact Runs.bind (.evalChain hinner hS henv _) fun _ _ _ _ h => .pure (OptionAlike.getD h)
  | index object key guarded =>
    exact Runs.bind (.evalChain hinner hS henv _) fun _ _ _ _ h => .pure (OptionAlike.getD h)
  | call callee args guarded =>
    exact Runs.bind (.evalChain hinner hS henv _) fun _ _ _ _ h => .pure (OptionAlike.getD h)

/-! ## 5. Statements -/

theorem Runs.iterate {env env' : Env} (henv : EnvAlike w env env') (body : Stmt) :
    Runs (some env'.scope) w (fun v => Option.Rel (Flows v)) (Eval.iterate inner env body)
      (Eval.iterate inner' env' body) := by
  refine Runs.andThen (hinner.exec w henv body) fun v f f' hv hf => ?_
  cases hf with
  | leave => exact .pure (.some .normal)
  | «return» h => exact .pure (.some (.return h))
  | normal | «continue» => exact .pure .none

theorem Runs.whileLoop (hS : S.limits.Within S'.limits) {env env' : Env}
    (henv : EnvAlike w env env') (test : Expr) (body : Stmt) {n n' : Nat}
    (hn : RoundsAlike S S' n n') :
    Runs (some env'.scope) w Flows (Eval.whileLoop S inner env test body n)
      (Eval.whileLoop S' inner' env' test body n') := by
  induction n generalizing w n' with
  | zero => exact .spent hS hn fun h => by rw [h]; rfl
  | succ n ih =>
    obtain ⟨k, rfl, hk⟩ := hn.succ
    unfold Eval.whileLoop
    refine Runs.bind (hinner.eval w henv test) fun v x x' hv hx => ?_
    have henv := henv.mono hv.le
    rw [Value.truthy_eq hx]
    split
    · refine Runs.andThen (.iterate hinner henv body) fun u f f' hu hf => ?_
      cases hf with
      | none => exact ih (henv.mono hu.le) hk
      | some hf => exact .pure hf
    · exact .pure .normal

theorem Runs.goesOn {env env' : Env} (henv : EnvAlike w env env') (test : Option Expr) :
    Runs none w (fun _ => Eq) (Eval.goesOn inner env test) (Eval.goesOn inner' env' test) := by
  cases test with
  | none => exact .pure rfl
  | some e => exact Runs.bind (hinner.eval w henv e) fun _ _ _ _ h => .pure (Value.truthy_eq h)

theorem Runs.evalOption {env env' : Env} (henv : EnvAlike w env env') (e : Option Expr) :
    Runs none w (fun _ _ _ => True) (Eval.evalOption inner env e)
      (Eval.evalOption inner' env' e) := by
  cases e with
  | none => exact .pure trivial
  | some e => exact Runs.bind (hinner.eval w henv e) fun _ _ _ _ _ => .pure trivial

theorem Runs.countRounds (hS : S.limits.Within S'.limits) {env env' : Env}
    (henv : EnvAlike w env env') (test update : Option Expr) (body : Stmt) {n n' : Nat}
    (hn : RoundsAlike S S' n n') :
    Runs (some env'.scope) w Flows (Eval.countRounds S inner env test update body n)
      (Eval.countRounds S' inner' env' test update body n') := by
  induction n generalizing w n' with
  | zero => exact .spent hS hn fun h => by rw [h]; rfl
  | succ n ih =>
    obtain ⟨k, rfl, hk⟩ := hn.succ
    unfold Eval.countRounds
    refine Runs.bind (.goesOn hinner henv test) ?_
    rintro v b _ hv rfl
    have henv := henv.mono hv.le
    cases b with
    | false => exact .pure .normal
    | true =>
      refine Runs.andThen (.iterate hinner henv body) fun u f f' hu hf => ?_
      have henv := henv.mono hu.le
      cases hf with
      | none =>
        refine Runs.bind (.evalOption hinner henv update) fun t _ _ ht _ => ?_
        exact ih (henv.mono ht.le) hk
      | some hf => exact .pure hf

theorem Runs.countLoop (hS : S.limits.Within S'.limits) {env env' : Env}
    (henv : EnvAlike w env env') (init : Option Stmt) (test update : Option Expr) (body : Stmt) :
    Runs (some env'.scope) w Flows (Eval.countLoop S inner env init test update body)
      (Eval.countLoop S' inner' env' init test update body) := by
  have hrounds {v : SideBySide S S'} (hv : Leads (some env'.scope) w v) :
      Runs (some env'.scope) v Flows
        (do Eval.countRounds S inner env test update body (← Eval.roundsLeft S))
        (do Eval.countRounds S' inner' env' test update body (← Eval.roundsLeft S')) :=
    Runs.bind (.roundsLeft hS) fun u n n' hu hn =>
      .countRounds hinner hS (henv.mono (hv.le.trans hu.le)) test update body hn
  cases init with
  | none => exact hrounds (.refl _ w)
  | some s => exact Runs.andThen (hinner.exec w henv s) fun v _ _ hv _ => hrounds hv

omit hinner in
theorem Runs.loopItems {x x' : Value} (h : Value.Alike w.ρ x x') :
    Runs none w Lists (Eval.loopItems x) (Eval.loopItems x') := by
  cases h with
  | plain hv =>
    cases x with
    | text s =>
      refine .pure (ItemsAlike.plain fun v hv => ?_)
      obtain ⟨c, _, rfl⟩ := List.mem_map.mp hv
      rfl
    | array _ _ => cases hv
    | _ => exact .mistyped _
  | array _ ht => exact .pure ht
  | _ => exact .mistyped _

theorem Runs.declareAll {env env' : Env} (henv : EnvAlike w env env')
    (bindings : List (String × Option Expr)) :
    Runs (some env'.scope) w (fun _ _ _ => True) (Eval.declareAll inner env bindings)
      (Eval.declareAll inner' env' bindings) := by
  induction bindings generalizing w with
  | nil => exact .pure trivial
  | cons binding rest ih =>
    obtain ⟨name, init⟩ := binding
    have hrest {v : SideBySide S S'} {x x' : Value} (hv : Leads none w v)
        (hx : Value.Alike v.ρ x x') :
        Runs (some env'.scope) v (fun _ _ _ => True)
          (do
            Run.changeHeap fun h => h.declare env.scope name x
            Eval.declareAll inner env rest)
          (do
            Run.changeHeap fun h => h.declare env'.scope name x'
            Eval.declareAll inner' env' rest) :=
      Runs.andThen (.declare (henv.mono hv.le) name hx) fun u _ _ hu _ =>
        ih ((henv.mono hv.le).mono hu.le)
    cases init with
    | none => exact hrest (.refl _ w) (.plain rfl)
    | some e => exact Runs.bind (hinner.eval w henv e) fun v x x' hv hx => hrest hv hx

omit hinner in
/-- A block in a scope of its own. -/
theorem Runs.inBlock {env env' : Env} (henv : EnvAlike w env env') {body body' : Env → Run Flow}
    (hbody : ∀ (v : SideBySide S S') {inside inside' : Env}, EnvAlike v inside inside' →
      Runs (some inside'.scope) v Flows (body inside) (body' inside')) :
    Runs none w Flows (Eval.inScope S env env.scope [] Flow.returned body)
      (Eval.inScope S' env' env'.scope [] Flow.returned body') :=
  Runs.inScope henv.source henv.scope .nil (fun _ _ _ h => h.holdsClosure_eq)
    (fun _ _ _ _ h hm hs hc => h.settle hm hs hc) fun v _ _ _ hin => hbody v hin

theorem Runs.eachRound {env env' : Env} (henv : EnvAlike w env env') (name : String) (body : Stmt)
    {items items' : List Value} (hitems : ItemsAlike w.ρ items items') :
    Runs none w Flows (Eval.eachRound S inner env name body items)
      (Eval.eachRound S' inner' env' name body items') := by
  induction items generalizing w items' with
  | nil =>
    cases hitems
    exact .pure .normal
  | cons item rest ih =>
    cases hitems with
    | cons hitem hrest =>
      unfold Eval.eachRound
      refine Runs.bind (P := fun v => Option.Rel (Flows v)) ?_ fun v f f' hv hf => ?_
      · refine Runs.inScope henv.source henv.scope (.cons name hitem .nil) ?_ ?_ ?_
        · intro v f f' hf
          cases hf with
          | none => rfl
          | some hf => exact hf.holdsClosure_eq
        · intro v u f f' hf hm hs hc
          cases hf with
          | none => exact .none
          | some hf => exact .some (hf.settle hm hs hc)
        · exact fun v i i' _ hin => .iterate hinner hin body
      · cases hf with
        | none => exact ih (henv.mono hv.le) (ItemsAlike.mono hv.le hrest)
        | some hf => exact .pure hf

theorem Runs.execBody (hS : S.limits.Within S'.limits) {env env' : Env}
    (henv : EnvAlike w env env') (s : Stmt) :
    Runs (some env'.scope) w Flows (Eval.execBody S inner env s)
      (Eval.execBody S' inner' env' s) := by
  cases s with
  | declare bindings =>
    exact Runs.andThen (.declareAll hinner henv bindings) fun _ _ _ _ _ => .pure .normal
  | function _ | empty => exact .pure .normal
  | cond test yes no =>
    refine Runs.bind (hinner.eval w henv test) fun v x x' hv hx => ?_
    have henv := henv.mono hv.le
    rw [Value.truthy_eq hx]
    split
    · exact hinner.exec v henv yes
    · cases no with
      | some s => exact hinner.exec v henv s
      | none => exact .pure .normal
  | loop test body =>
    refine Runs.bind (.roundsLeft hS) fun v n n' hv hn => ?_
    exact .whileLoop hinner hS (henv.mono hv.le) test body hn
  | countLoop init test update body =>
    exact Ends.widen (Runs.inBlock henv fun v _ _ hin =>
      .countLoop hinner hS hin init test update body)
  | eachLoop name items body =>
    refine Runs.bind (hinner.eval w henv items) fun v x x' hv hx => ?_
    refine Runs.bind (.loopItems hx) fun u xs xs' hu hxs => ?_
    exact Ends.widen (Runs.eachRound hinner (henv.mono (hv.le.trans hu.le)) name body hxs)
  | leave => exact .pure .leave
  | «continue» => exact .pure .continue
  | «return» value =>
    cases value with
    | none => exact .pure (.return (.plain rfl))
    | some e =>
      exact Runs.bind (hinner.eval w henv e) fun _ _ _ _ h => .pure (.return h)
  | block body =>
    exact Ends.widen (Runs.inBlock henv fun v _ _ hin => .execBlock hinner hin body)
  | expr e => exact Runs.bind (hinner.eval w henv e) fun _ _ _ _ _ => .pure .normal

/-! ## 6. All levels -/

omit hinner in
/-- The same code runs alike in scopes that stand for each other, at every level of nesting. -/
theorem levelsAlike (hS : S.limits.Within S'.limits) (n : Nat) :
    EvaluatorsAlike S S' (Eval.level S n) (Eval.level S' n) := by
  -- the induction is on the levels left: a level runs its parts one level down, after a step and
  -- inside a counted nesting that what they give does not depend on
  induction n with
  | zero =>
    have hrefuse {own : Option Nat} (w : SideBySide S S') {α β : Type}
        (P : SideBySide S S' → α → β → Prop) :
        Runs own w P (do Run.tick S.limits; throw (.tooNested maxNesting))
          (do Run.tick S'.limits; throw (.tooNested maxNesting)) :=
      Runs.bind (.tick hS) fun _ _ _ _ _ => .throw _
    exact ⟨fun w _ _ _ _ => hrefuse w _, fun w _ _ _ _ => hrefuse w _,
      fun w _ _ _ _ => hrefuse w _, fun w _ _ _ _ => hrefuse w _⟩
  | succ n ih =>
    refine ⟨fun w _ _ henv e => ?_, fun w _ _ henv name => ?_, fun w _ _ henv e => ?_,
      fun w _ _ henv s => ?_⟩
    · refine Runs.bind (.tick hS) fun v _ _ hv _ => .nested ?_ fun u hu => ?_
      · exact fun v u _ _ h hρ _ => by unfold Values at h ⊢; rwa [← hρ]
      · exact .evalBody ih hS ((henv.mono hv.le).mono hu.le) e
    · refine Runs.bind (.tick hS) fun v _ _ hv _ => .nested ?_ fun u hu => ?_
      · exact fun v u _ _ h hρ hheap => by unfold Held at h ⊢; rwa [← hρ, ← hheap]
      · exact .lookup ((henv.mono hv.le).mono hu.le) name
    · refine Runs.bind (.tick hS) fun v _ _ hv _ => .nested ?_ fun u hu => ?_
      · exact fun v u _ _ h hρ hheap => by unfold Targets at h ⊢; rwa [← hρ, ← hheap]
      · exact .evalTarget ih hS ((henv.mono hv.le).mono hu.le) e
    · refine Runs.bind (.tick hS) fun v _ _ hv _ => .nested ?_ fun u hu => ?_
      · exact fun v u _ _ h hρ _ => h.settle (by rw [hρ]) (by rw [hρ]) fun _ => hρ
      · exact .execBody ih hS ((henv.mono hv.le).mono hu.le) s

section Whole

variable (hS : S.limits.Within S'.limits)
include hS
omit hinner

/-- What can be run where the same is nested on both sides. -/
theorem withinAlike {n n' : Gauge} (hn : n = n') :
    EvaluatorsAlike S S' (Eval.within S n) (Eval.within S' n') :=
  hn ▸ levelsAlike hS _

theorem Runs.runExpr {env env' : Env} (henv : EnvAlike w env env') (e : Expr) :
    Runs none w Values (runExpr S env e) (runExpr S' env' e) := by
  unfold Runs RunsFrom
  rw [runExpr_apply, runExpr_apply]
  exact (withinAlike hS w.nesting).eval w henv e

theorem Runs.runProgram {env env' : Env} (henv : EnvAlike w env env') (program : List Stmt) :
    Runs (some env'.scope) w Options (runProgram S env program) (runProgram S' env' program) := by
  unfold Runs RunsFrom
  rw [runProgram_apply, runProgram_apply]
  exact Runs.andThen (.execBlock (withinAlike hS w.nesting) henv program) fun _ _ _ _ h =>
    .pure h.returned

theorem Runs.runCall {callee callee' : Value} (h : Value.Alike w.ρ callee callee')
    {args args' : List Value} (hargs : ItemsAlike w.ρ args args') :
    Runs none w Values (runCall S callee args) (runCall S' callee' args') := by
  unfold Runs RunsFrom
  rw [runCall_apply, runCall_apply]
  exact Runs.call (withinAlike hS w.nesting) hS h hargs

end Whole

end SideBySide

end TraceViewer.Snippet
