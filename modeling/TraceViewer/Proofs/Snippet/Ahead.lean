import TraceViewer.Proofs.Snippet.Comparison
import TraceViewer.Proofs.Snippet.Running
import TraceViewer.Proofs.Snippet.Writes

/-!
# The same code later and over reordered variables

Code that runs when more steps are spent, over scopes that hold the same variables in another order,
does the same unless it runs out of steps.  Nothing that can be run goes through the variables of a
scope in order: each is found by its name.
-/

namespace TraceViewer.Snippet

variable {α β : Type} {S : Setting}

/-! ## 1. Heaps with the same variables -/

/-- Scopes with the same variables in any order, inside the same scope. -/
structure Scope.SameVars (s s' : Scope) : Prop where
  parent : s'.parent = s.parent
  lookup : ∀ name, s'.vars.lookup name = s.vars.lookup name

/-- Heaps whose scopes hold the same variables in any order. -/
structure Heap.SameVars (h h' : Heap) : Prop where
  nextMark : h'.nextMark = h.nextMark
  nextSource : h'.nextSource = h.nextSource
  size : h'.scopes.size = h.scopes.size
  scope : ∀ i : Nat, Option.Rel Scope.SameVars h.scopes[i]? h'.scopes[i]?

theorem lookup_setVar (name other : String) (v : Value) (vars : List (String × Value)) :
    (setVar name v vars).lookup other = if other = name then some v else vars.lookup other := by
  split
  · next heq => rw [heq, lookup_setVar_self]
  · next hne => rw [lookup_setVar_of_ne hne]

theorem Scope.SameVars.refl (s : Scope) : s.SameVars s := ⟨rfl, fun _ => rfl⟩

namespace Heap.SameVars

variable {h h' k : Heap}

theorem refl (h : Heap) : h.SameVars h := by
  refine ⟨rfl, rfl, rfl, fun i => ?_⟩
  cases h.scopes[i]? with
  | none => exact .none
  | some s => exact .some (.refl s)

theorem trans (hh : h.SameVars h') (hk : h'.SameVars k) : h.SameVars k := by
  refine ⟨hk.nextMark.trans hh.nextMark, hk.nextSource.trans hh.nextSource, hk.size.trans hh.size,
    fun i => ?_⟩
  have hi := hh.scope i
  have hj := hk.scope i
  generalize h.scopes[i]? = s at hi
  generalize h'.scopes[i]? = s' at hi hj
  generalize k.scopes[i]? = t at hj
  cases hi with
  | none => exact hj
  | some hs =>
    cases hj with
    | some ht =>
      exact .some ⟨ht.parent.trans hs.parent, fun name => (ht.lookup name).trans (hs.lookup name)⟩

theorem find?_eq (hh : h.SameVars h') (i : Nat) (name : String) :
    h'.find? i name = h.find? i name := by
  induction i using Nat.strongRecOn with
  | ind i ih =>
    have hi := hh.scope i
    rw [Heap.find?, Heap.find?]
    generalize h.scopes[i]? = s at hi
    generalize h'.scopes[i]? = s' at hi
    cases hi with
    | none => rfl
    | @some s s' hs =>
      dsimp only
      rw [hs.lookup name, hs.parent]
      cases s.vars.lookup name with
      | some v => rfl
      | none =>
        cases s.parent with
        | none => rfl
        | some p =>
          dsimp only
          split
          · next hp => exact ih p hp
          · rfl

/-- Changes that agree on the variables of a scope by their names. -/
theorem modifyVars (hh : h.SameVars h') (i : Nat)
    {f f' : List (String × Value) → List (String × Value)}
    (hf : ∀ vars vars' : List (String × Value), (∀ name, vars'.lookup name = vars.lookup name) →
      ∀ name, (f' vars').lookup name = (f vars).lookup name) :
    (h.modifyVars i f).SameVars (h'.modifyVars i f') := by
  refine ⟨hh.nextMark, hh.nextSource, ?_, fun j => ?_⟩
  · rw [size_modifyVars, size_modifyVars, hh.size]
  · have hj := hh.scope j
    rw [scopes_modifyVars, scopes_modifyVars]
    split
    · generalize h.scopes[j]? = s at hj
      generalize h'.scopes[j]? = s' at hj
      cases hj with
      | none => exact .none
      | some hs => exact .some ⟨hs.parent, hf _ _ hs.lookup⟩
    · exact hj

theorem setVar (hh : h.SameVars h') (i : Nat) (name : String) (v : Value) :
    (h.modifyVars i (Snippet.setVar name v)).SameVars (h'.modifyVars i (Snippet.setVar name v)) :=
  hh.modifyVars i fun vars vars' hvars other => by rw [lookup_setVar, lookup_setVar, hvars]

theorem clearIf (hh : h.SameVars h') (b : Bool) (i : Nat) :
    (h.clearIf b i).SameVars (h'.clearIf b i) := by
  cases b with
  | true => exact hh.modifyVars i fun _ _ _ _ => rfl
  | false => exact hh

theorem addScope (hh : h.SameVars h') (parent : Option Nat) (vars : List (String × Value)) :
    (h.addScope parent vars).2.SameVars (h'.addScope parent vars).2 := by
  refine ⟨hh.nextMark, hh.nextSource, ?_, fun i => ?_⟩
  · show (h'.scopes.push _).size = (h.scopes.push _).size
    rw [Array.size_push, Array.size_push, hh.size]
  · show Option.Rel _ (h.scopes.push ⟨vars, parent⟩)[i]? (h'.scopes.push ⟨vars, parent⟩)[i]?
    rw [Array.getElem?_push, Array.getElem?_push, hh.size]
    split
    · exact .some (.refl _)
    · exact hh.scope i

/-- An operation gives the same on both heaps, and leaves the same variables. -/
theorem operation {f : Heap → α × Heap} (hf : Heap.Operation f) (hh : h.SameVars h') :
    (f h').1 = (f h).1 ∧ (f h).2.SameVars (f h').2 := by
  cases hf with
  | mark => exact ⟨hh.nextMark, { hh with nextMark := congrArg (· + 1) hh.nextMark }⟩
  | source => exact ⟨hh.nextSource, { hh with nextSource := congrArg (· + 1) hh.nextSource }⟩
  | ofJson j =>
    dsimp only [Heap.ofJson]
    rw [hh.nextMark]
    exact ⟨rfl, { hh with nextMark := rfl }⟩
  | addTop vars => exact ⟨hh.size, hh.addScope none vars⟩
  | lookup f scope name =>
    dsimp only
    unfold Heap.lookup?
    rw [hh.find?_eq]
    exact ⟨rfl, hh⟩
  | assign scope name v =>
    dsimp only
    unfold Heap.assign?
    rw [hh.find?_eq]
    cases h.find? scope name with
    | none => exact ⟨rfl, hh⟩
    | some found => exact ⟨rfl, hh.setVar found.1 name v⟩
  | declare scope name v => exact ⟨rfl, hh.setVar scope name v⟩

end Heap.SameVars

/-! ## 2. Runs that are ahead -/

/-- A machine with the same variables as another one, which has spent more steps. -/
structure Machine.Ahead (m m' : Machine) : Prop where
  heap : m.heap.SameVars m'.heap
  escapes : m'.escapes = m.escapes
  depth : m'.depth.now = m.depth.now
  nesting : m'.nesting.now = m.nesting.now
  steps : m.steps ≤ m'.steps

/-- How a run ends, and how it ends when it is ahead: alike, unless no step was left there. -/
inductive EndsAhead :
    EStateM.Result Error Machine α → EStateM.Result Error Machine α → Prop
  | ok (a : α) {m m' : Machine} (h : m.Ahead m') : EndsAhead (.ok a m) (.ok a m')
  | error (e : Error) {m m' : Machine} (h : m.Ahead m') : EndsAhead (.error e m) (.error e m')
  | cut (limit : Nat) (x : EStateM.Result Error Machine α) (m' : Machine) :
      EndsAhead x (.error (.budgetSpent limit) m')

/-- Runs of which the second ends as the first one does when it is ahead. -/
def RunAhead (r r' : Run α) : Prop := ∀ m m', m.Ahead m' → EndsAhead (r m) (r' m')

theorem Machine.Ahead.refl (m : Machine) : m.Ahead m :=
  ⟨.refl _, rfl, rfl, rfl, Nat.le_refl _⟩

/-- Outcomes that are alike stay so with runs behind them. -/
theorem EndsAhead.bind {r r' : Run α} {f f' : α → Run β} {m m' : Machine}
    (h : EndsAhead (r m) (r' m'))
    (hf : ∀ a n n', n.Ahead n' → r' m' = .ok a n' → EndsAhead (f a n) (f' a n')) :
    EndsAhead ((r >>= f) m) ((r' >>= f') m') := by
  show EndsAhead (EStateM.bind r f m) (EStateM.bind r' f' m')
  unfold EStateM.bind
  generalize r m = x at h
  generalize r' m' = y at h hf
  cases h with
  | ok a hn => exact hf a _ _ hn rfl
  | error e hn => exact .error e hn
  | cut limit x n => exact .cut limit _ n

namespace RunAhead

variable {r r' : Run α}

protected theorem pure (a : α) : RunAhead (pure a : Run α) (pure a) := fun _ _ h => .ok a h

protected theorem throw (e : Error) : RunAhead (throw e : Run α) (throw e) :=
  fun _ _ h => .error e h

protected theorem bind {f f' : α → Run β} (h : RunAhead r r')
    (hf : ∀ a, RunAhead (f a) (f' a)) : RunAhead (r >>= f) (r' >>= f') :=
  fun m m' hm => (h m m' hm).bind fun a n n' hn _ => hf a n n' hn

theorem onHeap {f : Heap → α × Heap} (hf : Heap.Operation f) :
    RunAhead (Run.onHeap f) (Run.onHeap f) := by
  intro m m' h
  obtain ⟨hgives, hleaves⟩ := h.heap.operation hf
  unfold Run.onHeap
  dsimp only
  rw [hgives]
  exact .ok _ { h with heap := hleaves }

theorem noteEscape (escapes : Bool) :
    RunAhead (Run.noteEscape escapes) (Run.noteEscape escapes) := by
  intro m m' h
  cases escapes with
  | false => exact .ok () h
  | true => exact .ok () { h with escapes := congrArg (· + 1) h.escapes }

theorem tick (S : Setting) : RunAhead (Run.tick S.limits) (Run.tick S.limits) := by
  intro m m' h
  have hsteps := h.steps
  by_cases hspent : S.limits.steps ≤ m'.steps
  · rw [tick_of_le hspent]
    exact .cut _ _ _
  · rw [tick_of_lt (Nat.lt_of_not_le hspent), tick_of_lt (by omega)]
    exact .ok () { h with steps := Nat.succ_le_succ hsteps }

theorem leaving {f : Machine → Machine} (hf : ∀ m m', m.Ahead m' → (f m).Ahead (f m'))
    {x y : EStateM.Result Error Machine α} (h : EndsAhead x y) :
    EndsAhead (Snippet.leaving f x) (Snippet.leaving f y) := by
  cases h with
  | ok a h => exact .ok a (hf _ _ h)
  | error e h => exact .error e (hf _ _ h)
  | cut limit x n => exact .cut limit _ _

theorem counted (h : RunAhead r r') : RunAhead (Eval.counted S r) (Eval.counted S r') := by
  intro m m' hm
  rw [counted_apply, counted_apply, hm.depth]
  split
  · exact .error _ hm
  · apply leaving
    · intro n n' hn
      exact { hn with depth := congrArg (· - 1) hn.depth }
    · apply h
      exact { hm with depth := congrArg (· + 1) hm.depth }

theorem nested (h : RunAhead r r') : RunAhead (Eval.nested r) (Eval.nested r') := by
  intro m m' hm
  rw [nested_apply, nested_apply, hm.nesting]
  split
  · exact .error _ hm
  · apply leaving
    · intro n n' hn
      exact { hn with nesting := congrArg (· - 1) hn.nesting }
    · apply h
      exact { hm with nesting := congrArg (· + 1) hm.nesting }

theorem inScope (env : Env) (parent : Nat) (vars : List (String × Value))
    (handedOn : α → Option Value) {body body' : Env → Run α}
    (h : ∀ inside, RunAhead (body inside) (body' inside)) :
    RunAhead (Eval.inScope S env parent vars handedOn body)
      (Eval.inScope S env parent vars handedOn body') := by
  intro m m' hm
  -- whether the scope is emptied depends on escapes alone
  have hrelease {n n' : Machine} (hn : n.Ahead n') (scope escapes : Nat) (out : Option Value) :
      (n.released S scope escapes out).Ahead (n'.released S scope escapes out) := by
    have hmay : n'.mayRelease escapes out = n.mayRelease escapes out := by
      unfold Machine.mayRelease
      rw [hn.escapes]
    unfold Machine.released
    rw [hmay]
    exact { hn with heap := hn.heap.clearIf _ _ }
  have hbody := h { env with scope := m.heap.scopes.size }
    { m with heap := (m.heap.addScope (some parent) vars).2 }
    { m' with heap := (m'.heap.addScope (some parent) vars).2 }
    { hm with heap := hm.heap.addScope _ _ }
  rw [inScope_apply, inScope_apply, hm.heap.size]
  generalize body _ _ = x at hbody ⊢
  generalize body' _ _ = y at hbody ⊢
  rw [hm.escapes]
  cases hbody with
  | ok a hn => exact .ok a (hrelease hn _ _ _)
  | error e hn => exact .error e (hrelease hn _ _ _)
  | cut limit x n => exact .cut limit _ _

/-- Ahead no more rounds are left, and a loop without rounds left is out of steps. -/
theorem allRounds {goes goes' : Run Bool} {round round' : Run (Option Flow)}
    (hgoes : RunAhead goes goes') (hround : RunAhead round round') :
    RunAhead (Eval.allRounds S goes round) (Eval.allRounds S goes' round') := by
  intro m m' hm
  have hle : S.limits.steps - m'.steps + 1 ≤ S.limits.steps - m.steps + 1 := by
    have := hm.steps
    omega
  exact Eval.rounds_rel RunAhead .pure .bind (fun _ _ _ _ => .cut _ _ _) hgoes hround hle m m' hm

end RunAhead

/-- All that can be run does ahead what it does behind. -/
def gettingAhead (S : Setting) : Comparison S S where
  globals := S.globals_self
  Rel _ _ r r' := RunAhead r r'
  weaken h := h
  pure := .pure
  throw e _ := .throw e
  bind h hf := .bind h hf
  onHeap := .onHeap
  noteEscape := .noteEscape
  tick := .tick S
  counted h := .counted h
  nested h := .nested h
  inScope env parent vars handedOn _ _ h := .inScope env parent vars handedOn h
  allRounds hgoes hround := .allRounds hgoes hround

end TraceViewer.Snippet
