import TraceViewer.Proofs.Snippet.Running
import TraceViewer.Proofs.Snippet.Scoping

/-!
# What a push leaves

A call of `push` looks at its variable, evaluates its arguments, and stores what it looked at with
the arguments behind it.  What the arguments themselves have pushed onto the variable is overwritten
by that: `pushed_iff` says that nothing is lost exactly when there was nothing to lose.
-/

namespace TraceViewer.Snippet

variable {S : Setting} {env : Env} {m n : Machine} {name : String}

/-! ## 1. A variable that is assigned -/

namespace Heap

variable {h : Heap} {k i : Nat} {x : Value}

theorem lt_of_find? (hf : h.find? i name = some (k, x)) : i < h.scopes.size := by
  by_contra hi
  rw [find?, Array.getElem?_eq_none (Nat.le_of_not_lt hi)] at hf
  cases hf

/-- A look-up asks the scopes alone. -/
theorem find?_congr {g : Heap} (hs : g.scopes = h.scopes) (i : Nat) (name : String) :
    g.find? i name = h.find? i name := by
  induction i using Nat.strongRecOn with
  | ind i ih =>
    rw [find?, find?, hs]
    split
    · rfl
    · split
      · rfl
      · split
        · rfl
        · split
          · next hlt => exact ih _ hlt
          · rfl

/-- A variable that is set is found where it was, with its new value. -/
theorem find?_setVar (hf : h.find? i name = some (k, x)) (v : Value) :
    (h.modifyVars k (setVar name v)).find? i name = some (k, v) := by
  obtain ⟨s, hs, hlookup⟩ := lookup_of_find? hf
  have hfst : ((h.modifyVars k (setVar name v)).find? i name).map (·.1) = some k := by
    rw [find?_fst_eq (fun j _ t ht => ?_) (lt_of_find? hf), hf]
    · rfl
    · rw [scopes_modifyVars]
      split
      · next hk =>
        subst hk
        rw [hs] at ht
        cases ht
        rw [hs]
        exact ⟨_, rfl, rfl, names_setVar (by rw [hlookup]; rfl)⟩
      · exact ⟨t, ht, rfl, rfl⟩
  obtain ⟨found, hfound, hk⟩ := Option.map_eq_some_iff.mp hfst
  obtain ⟨t, ht, hlookup'⟩ := lookup_of_find? hfound
  obtain ⟨j, y⟩ := found
  cases hk
  rw [scopes_modifyVars, if_pos rfl, hs] at ht
  cases ht
  rw [lookup_setVar_self] at hlookup'
  cases hlookup'
  exact hfound

end Heap

/-! ## 2. Pushing -/

/-- The variable, found in the scope `k`, holds the items with the values behind them, and the
result is how many there are. -/
structure Pushed (h : Heap) (scope k : Nat) (name : String) (items vs : List Value) (v : Value) :
    Prop where
  holds : ∃ mark, h.find? scope name = some (k, .array mark (items ++ vs))
  result : v = .number (Number.ofNat (items ++ vs).length)

/-- Only one list can have got the values behind it. -/
theorem Pushed.items_unique {h : Heap} {scope k : Nat} {items items' vs : List Value} {v : Value}
    (hp : Pushed h scope k name items vs v) (hp' : Pushed h scope k name items' vs v) :
    items' = items := by
  obtain ⟨mark, hfound⟩ := hp.holds
  obtain ⟨mark', hfound'⟩ := hp'.holds
  rw [hfound] at hfound'
  have harray := congrArg Prod.snd (Option.some.inj hfound')
  injection harray with _ hitems
  exact (List.append_cancel_right hitems).symm

/-- A push overwrites the variable, whatever it holds by then. -/
theorem push_apply {k : Nat} {x : Value} (hx : m.heap.find? env.scope name = some (k, x))
    (items vs : List Value) :
    ∃ v n, Eval.push env name items vs m = .ok v n ∧
      Pushed n.heap env.scope k name items vs v := by
  -- the variable lets go of its items, an escape may be noted, and the new array gets its mark
  let m₁ : Machine := { m with heap := m.heap.modifyVars k (setVar name .undefined) }
  let m₂ : Machine :=
    if vs.any Value.holdsClosure then { m₁ with escapes := m₁.escapes + 1 } else m₁
  let m₃ : Machine := { m₂ with heap := m₂.heap.mark.2 }
  have hassign : Eval.assign env name .undefined m = .ok true m₁ := by
    rw [SideBySide.assign_apply, hx]
  have hscopes : m₃.heap.scopes = m₁.heap.scopes := by
    show m₂.heap.scopes = _
    dsimp only [m₂]
    split <;> rfl
  have hx₃ : m₃.heap.find? env.scope name = some (k, .undefined) := by
    rw [Heap.find?_congr hscopes]
    exact Heap.find?_setVar hx _
  let grown : Value := .array m₂.heap.nextMark (items ++ vs)
  have hstore : Eval.assign env name grown m₃ =
      .ok true { m₃ with heap := m₃.heap.modifyVars k (setVar name grown) } := by
    rw [SideBySide.assign_apply, hx₃]
  have hescape : Run.noteEscape (vs.any Value.holdsClosure) m₁ = .ok () m₂ := rfl
  have hmark : Run.newArray (items ++ vs) m₂ = .ok grown m₃ := rfl
  refine ⟨_, { m₃ with heap := m₃.heap.modifyVars k (setVar name grown) }, ?_,
    ⟨_, Heap.find?_setVar hx₃ grown⟩, rfl⟩
  unfold Eval.push
  rw [Run.bind_ok hassign, if_pos rfl, Run.bind_ok hescape, Run.bind_ok hmark,
    Run.bind_ok hstore]
  rfl

/-- The machine in which the arguments of a method call on a variable are evaluated: the call, the
link to its object and the variable have taken their steps, and the call still has its level. -/
def Machine.atArguments (m : Machine) : Machine := m.entered.entered.entered.left.left

theorem lookup_of_find? {k : Nat} {x : Value} (hx : m.heap.find? env.scope name = some (k, x)) :
    Eval.lookup S env name m = .ok x m := by
  have hasked : Run.askHeap (fun h => h.lookup? env.scope name) m = .ok (some x) m := by
    show EStateM.Result.ok (m.heap.lookup? env.scope name) m = _
    rw [Heap.lookup?, hx]
    rfl
  unfold Eval.lookup
  rw [Run.bind_ok hasked]
  rfl

/-- The link to a variable gives what the variable holds. -/
theorem linkTarget_ident {k : Nat} {x : Value} {target : Option Value} {guarded : Bool}
    (hx : m.heap.find? env.scope name = some (k, x)) (hnull : x.isNullish = false)
    (h : Eval.linkTarget (Eval.within S m.entered.nesting) env (.ident name) guarded m.entered =
      .ok target n) :
    n = m.atArguments ∧ target = some x := by
  unfold Eval.linkTarget at h
  obtain ⟨found, n₁, htarget, h⟩ := Run.eq_ok_of_bind h
  rw [target_apply] at htarget
  obtain ⟨n₂, hchain, rfl⟩ := eq_ok_of_stepped htarget
  obtain ⟨y, heval, rfl⟩ := Run.eq_ok_of_map hchain
  rw [eval_apply] at heval
  obtain ⟨n₃, hlookup, rfl⟩ := eq_ok_of_stepped heval
  have hvalue : Eval.lookup S env name m.entered.entered.entered =
      .ok x m.entered.entered.entered := lookup_of_find? hx
  have hlookup : Eval.lookup S env name m.entered.entered.entered = .ok y n₃ := hlookup
  rw [hvalue] at hlookup
  cases hlookup
  cases h
  refine ⟨rfl, ?_⟩
  show (some x).filter _ = some x
  rw [Option.filter_some, hnull, Bool.and_false]
  rfl

/-- Arguments leave a variable in its scope, whatever they do to its value. -/
theorem find?_of_evalAll {k : Nat} {x : Value} {es : List Expr} {vs : List Value} {g : Gauge}
    (hx : m.heap.find? env.scope name = some (k, x))
    (h : Eval.evalAll (Eval.within S g) env es m = .ok vs n) :
    ∃ y, n.heap.find? env.scope name = some (k, y) := by
  have hspared : Sparing S (fun _ _ => False) none m.heap (SafeItems fun _ _ => False)
      (Eval.evalAll (Eval.within S g) env es) :=
    (sparing_level S _ _).evalAll Heap.safe_unwatched
  have hframes := (hspared (Heap.tame_unwatched S m.heap) m rfl).frames
  rw [h] at hframes
  have hfst := hframes.find?_fst (Heap.lt_of_find? hx) name
  rw [hx] at hfst
  obtain ⟨⟨_, y⟩, hy, rfl⟩ := Option.map_eq_some_iff.mp hfst
  exact ⟨y, hy⟩

/-- A successful call of `push` leaves the array that the variable held when the call began, with
the values of the arguments behind it. -/
theorem pushed_of_runExpr {es : List Expr} {guarded guardedCall : Bool} {k mark : Nat}
    {items : List Value} {v : Value}
    (hitems : m.heap.find? env.scope name = some (k, .array mark items))
    (hrun : runExpr S env (.call (.member (.ident name) "push" guarded) es guardedCall) m =
      .ok v n) :
    ∃ vs m', Eval.evalAll (Eval.within S m.atArguments.nesting) env es m.atArguments = .ok vs m' ∧
      Pushed n.heap env.scope k name items vs v := by
  rw [runExpr_apply, eval_apply] at hrun
  obtain ⟨n₁, hbody, rfl⟩ := eq_ok_of_stepped hrun
  obtain ⟨result, n₂, hchain, hv⟩ := Run.eq_ok_of_bind hbody
  rw [Eval.evalChain] at hchain
  obtain ⟨target, m₁, hlink, hcall⟩ := Run.eq_ok_of_bind hchain
  obtain ⟨rfl, rfl⟩ := linkTarget_ident hitems rfl hlink
  -- an array lacks no method, so the call goes on to its arguments
  have hlacks : Eval.lacksMethod (.array mark items) "push" = false := rfl
  dsimp only at hcall
  rw [hlacks, Bool.and_false, if_neg Bool.false_ne_true] at hcall
  obtain ⟨vs, m', hargs, hcall⟩ := Run.eq_ok_of_bind hcall
  obtain ⟨u, hpush, rfl⟩ := Run.eq_ok_of_map hcall
  cases hv
  have hitems' : m.atArguments.heap.find? env.scope name = some (k, .array mark items) := hitems
  obtain ⟨x, hx⟩ := find?_of_evalAll hitems' hargs
  obtain ⟨v', n', hpush', hpushed⟩ := push_apply hx items vs
  rw [Eval.callMethod, if_pos (beq_self_eq_true _), hpush'] at hpush
  cases hpush
  exact ⟨vs, m', hargs, hpushed⟩

/-- What the arguments of a call of `push` have pushed onto its variable is lost: a successful call
leaves the array that the variable holds once the arguments have been evaluated, with their values
behind it, exactly when that is still the array that it held when the call began. -/
theorem pushed_iff (S : Setting) (env : Env) (m n : Machine) (name : String) (es : List Expr)
    (guarded guardedCall : Bool) {k mark : Nat} {items : List Value} {v : Value}
    (hitems : m.heap.find? env.scope name = some (k, .array mark items))
    (hrun : runExpr S env (.call (.member (.ident name) "push" guarded) es guardedCall) m =
      .ok v n) :
    ∃ vs m', Eval.evalAll (Eval.within S m.atArguments.nesting) env es m.atArguments = .ok vs m' ∧
      Pushed n.heap env.scope k name items vs v ∧
      ∀ mark' items', m'.heap.find? env.scope name = some (k, .array mark' items') →
        (Pushed n.heap env.scope k name items' vs v ↔ items' = items) := by
  obtain ⟨vs, m', hargs, hpushed⟩ := pushed_of_runExpr hitems hrun
  refine ⟨vs, m', hargs, hpushed, fun _ items' _ => ⟨hpushed.items_unique, ?_⟩⟩
  rintro rfl
  exact hpushed

/-- Pushing null: `a.push(null)`. -/
def pushNull : Expr := .call (.member (.ident "a") "push" false) [.null] false

/-- Pushing what pushing gives: `a.push(a.push(null))`. -/
def pushTwice : Expr := .call (.member (.ident "a") "push" false) [pushNull] false

/-- A machine whose only variable holds an array of one item. -/
def oneItem : Machine where
  heap := { scopes := #[⟨[("a", .array 0 [.bool true])], none⟩], nextMark := 1 }

theorem find?_oneItem : oneItem.heap.find? 0 "a" = some (0, .array 0 [.bool true]) := by
  unfold Heap.find?
  rfl

theorem runExpr_pushTwice : ∃ v n, runExpr {} ⟨0, 0⟩ pushTwice oneItem = .ok v n := by
  have hok : ((runExpr {} ⟨0, 0⟩ pushTwice).gave? oneItem).any (fun _ => true) = true := by
    decide +kernel
  obtain ⟨v, n, h, -⟩ := Run.eq_ok_of_gave? hok
  exact ⟨v, n, h⟩

theorem eq_of_evalAll_null {vs : List Value}
    (h : Eval.evalAll (Eval.within S m.nesting) env [.null] m = .ok vs n) : vs = [.null] := by
  obtain ⟨v, m', hnull, hrest⟩ := Run.eq_ok_of_bind h
  rw [eval_apply] at hnull
  obtain ⟨m'', hbody, rfl⟩ := eq_ok_of_stepped hnull
  cases hbody
  cases hrest
  rfl

/-- The inner push leaves two items, before the outer one takes them for one. -/
theorem evalAll_pushNull : ∃ v m' mark,
    Eval.evalAll (Eval.within {} oneItem.atArguments.nesting) ⟨0, 0⟩ [pushNull]
        oneItem.atArguments = .ok [v] m' ∧
      m'.heap.find? 0 "a" = some (0, .array mark [.bool true, .null]) := by
  have hok : ((runExpr {} ⟨0, 0⟩ pushNull).gave? oneItem.atArguments).any (fun _ => true) =
      true := by decide +kernel
  obtain ⟨v, m', hrun, -⟩ := Run.eq_ok_of_gave? hok
  obtain ⟨vs, m'', hnull, hpushed⟩ := pushed_of_runExpr find?_oneItem hrun
  obtain rfl := eq_of_evalAll_null hnull
  obtain ⟨mark, hfound⟩ := hpushed.holds
  refine ⟨v, m', mark, ?_, hfound⟩
  rw [runExpr_apply] at hrun
  rw [Eval.evalAll, Run.bind_ok hrun]
  rfl

/-- The theorem for a push of what a push gives: as two items were there when the second one was
pushed, its call does not leave three. -/
theorem pushed_iff_pushTwice :
    oneItem.heap.find? 0 "a" = some (0, .array 0 [.bool true]) ∧
      ∃ v n, runExpr {} ⟨0, 0⟩ pushTwice oneItem = .ok v n ∧
        ∃ vs, Pushed n.heap 0 0 "a" [.bool true] vs v ∧
          ¬Pushed n.heap 0 0 "a" [.bool true, .null] vs v := by
  obtain ⟨v, n, hrun⟩ := runExpr_pushTwice
  obtain ⟨vs, m', hargs, hpushed, hiff⟩ :=
    pushed_iff {} ⟨0, 0⟩ oneItem n "a" [pushNull] false false find?_oneItem hrun
  obtain ⟨x, m'', mark, hargs', hfound⟩ := evalAll_pushNull
  rw [hargs] at hargs'
  cases hargs'
  refine ⟨find?_oneItem, v, n, hrun, _, hpushed, fun h => ?_⟩
  have hitems := (hiff mark _ hfound).mp h
  cases hitems

/-- An update is lost: the variable holds its item and the null that was pushed onto it, and the
call does not leave these two with the value of the argument behind them. -/
theorem pushTwice_loses_null :
    ∃ v n vs m' mark, runExpr {} ⟨0, 0⟩ pushTwice oneItem = .ok v n ∧
      Eval.evalAll (Eval.within {} oneItem.atArguments.nesting) ⟨0, 0⟩ [pushNull]
        oneItem.atArguments = .ok vs m' ∧
      m'.heap.find? 0 "a" = some (0, .array mark ([.bool true] ++ [.null])) ∧
      ¬Pushed n.heap 0 0 "a" ([.bool true] ++ [.null]) vs v := by
  obtain ⟨v, n, hrun⟩ := runExpr_pushTwice
  obtain ⟨vs, m', hargs, hpushed⟩ := pushed_of_runExpr find?_oneItem hrun
  obtain ⟨x, m'', mark, hargs', hfound⟩ := evalAll_pushNull
  have hargs : Eval.evalAll (Eval.within {} oneItem.atArguments.nesting) ⟨0, 0⟩ [pushNull]
      oneItem.atArguments = .ok vs m' := hargs
  rw [hargs] at hargs'
  cases hargs'
  refine ⟨v, n, _, m', mark, hrun, hargs, hfound, fun h => ?_⟩
  have hitems := hpushed.items_unique h
  cases hitems

end TraceViewer.Snippet
