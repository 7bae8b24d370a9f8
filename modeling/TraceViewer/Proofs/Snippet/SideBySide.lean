import TraceViewer.Proofs.Snippet.HeapAlike
import TraceViewer.Snippet.Eval

/-!
# Two runs side by side

`SideBySide S S'` holds the machines of two runs of the same code, one under each setting, with the
numbers of one that stand for numbers of the other.  `Ends own w Q` relates the outcomes of two
runs that began at `w`: values related by `Q`, or the same error, with machines that are side by
side again; or the left run met a limit that the right one has not.

The settings share their names and limits, save that the left one may be the tighter, and each of
them releases finished scopes or keeps them as it likes.
-/

namespace TraceViewer.Snippet

/-! ## 1. Machines side by side -/

/-- Two machines with the same counts, and heaps and shared names that are alike. -/
structure SideBySide (S S' : Setting) where
  ρ : Renaming
  left : Machine
  right : Machine
  globals : FieldsAlike ρ S.globals S'.globals
  steps : left.steps = right.steps
  depth : left.depth = right.depth
  nesting : left.nesting = right.nesting
  escapes : left.escapes = right.escapes
  heap : left.heap.Alike ρ right.heap

/-- Limits none of which is above that of others. -/
structure Limits.Within (l l' : Limits) : Prop where
  steps : l.steps ≤ l'.steps
  depth : l.depth ≤ l'.depth

namespace SideBySide

variable {S S' : Setting} {own : Option Nat}

/-- Both machines give out the same numbers, and each number stands for itself alone. -/
structure Diagonal (w : SideBySide S S') : Prop where
  mark : ∀ a b, w.ρ.mark a b ↔ a = b ∧ a < w.left.heap.nextMark
  scope : ∀ a b, w.ρ.scope a b → a = b
  source : ∀ a b, w.ρ.source a b ↔ a = b ∧ a < w.left.heap.nextSource
  nextMark : w.left.heap.nextMark = w.right.heap.nextMark
  nextSource : w.left.heap.nextSource = w.right.heap.nextSource
  size : w.left.heap.scopes.size = w.right.heap.scopes.size

theorem Diagonal.ρ {w : SideBySide S S'} (h : w.Diagonal) : w.ρ.Diagonal :=
  ⟨fun a b hab => ((h.mark a b).mp hab).1, h.scope, fun a b hab => ((h.source a b).mp hab).1⟩

/-- What becomes of two machines by runs that declare variables in `own` at most, a scope of the
right machine. -/
structure Leads (own : Option Nat) (w v : SideBySide S S') : Prop where
  le : w.ρ.Le v.ρ
  fresh : ∀ i i', v.ρ.scope i i' → w.ρ.scope i i' ∨
    w.left.heap.scopes.size ≤ i ∧ w.right.heap.scopes.size ≤ i'
  size : w.left.heap.scopes.size ≤ v.left.heap.scopes.size
  follows : w.right.Follows own v.right
  diagonal : w.Diagonal → v.Diagonal

namespace Leads

variable {w v u : SideBySide S S'}

theorem refl (own : Option Nat) (w : SideBySide S S') : Leads own w w :=
  ⟨.refl _, fun _ _ h => .inl h, Nat.le_refl _, .refl own _, id⟩

theorem trans (h : Leads own w v) (g : Leads own v u) : Leads own w u := by
  refine ⟨h.le.trans g.le, fun i i' hi => ?_, Nat.le_trans h.size g.size,
    h.follows.trans g.follows, fun hw => g.diagonal (h.diagonal hw)⟩
  have hsize := h.size
  have hsize' := h.follows.size_le
  rcases g.fresh i i' hi with hi | hi
  · exact h.fresh i i' hi
  · exact .inr (by omega)

theorem widen (h : Leads none w v) : Leads own w v :=
  ⟨h.le, h.fresh, h.size, h.follows.widen, h.diagonal⟩

/-- Declaring variables in a scope made since is declaring none in those that were there. -/
theorem transNew (h : Leads none w v) {i : Nat} (hi : w.right.heap.scopes.size ≤ i)
    (g : Leads (some i) v u) : Leads none w u := by
  refine ⟨h.le.trans g.le, fun j j' hj => ?_, Nat.le_trans h.size g.size,
    h.follows.transNew hi g.follows, fun hw => g.diagonal (h.diagonal hw)⟩
  rcases g.fresh j j' hj with hj | hj
  · exact h.fresh j j' hj
  · exact .inr ⟨Nat.le_trans h.size hj.1, Nat.le_trans h.follows.size_le hj.2⟩

end Leads

/-! ## 2. Outcomes side by side -/

/-- The errors of the left run that say nothing about the right one: those of a limit that is
tighter on the left. -/
def Cut (S S' : Setting) : Error → Prop
  | .budgetSpent n => n = S.limits.steps ∧ S.limits.steps < S'.limits.steps
  | .tooManyCalls n => n = S.limits.depth ∧ S.limits.depth < S'.limits.depth
  | _ => False

theorem cut_steps (h : S.limits.steps < S'.limits.steps) :
    Cut S S' (.budgetSpent S.limits.steps) := ⟨rfl, h⟩

theorem cut_depth (h : S.limits.depth < S'.limits.depth) :
    Cut S S' (.tooManyCalls S.limits.depth) := ⟨rfl, h⟩

/-- Under the same limits neither run is cut off by itself. -/
theorem not_cut (h : S.limits = S'.limits) (e : Error) : ¬Cut S S' e := by
  cases e with
  | budgetSpent _ | tooManyCalls _ =>
    rintro ⟨_, hlt⟩
    rw [h] at hlt
    exact Nat.lt_irrefl _ hlt
  | _ => exact id

/-- How two runs end that began at `w`. -/
inductive Ends {α β : Type} (own : Option Nat) (w : SideBySide S S')
    (Q : SideBySide S S' → α → β → Prop) :
    EStateM.Result Error Machine α → EStateM.Result Error Machine β → Prop
  | ok {a : α} {b : β} (v : SideBySide S S') (hv : Leads own w v) (h : Q v a b) :
      Ends own w Q (.ok a v.left) (.ok b v.right)
  | error (v : SideBySide S S') (hv : Leads own w v) (e : Error) :
      Ends own w Q (.error e v.left) (.error e v.right)
  | cut {e : Error} (he : Cut S S' e) (m : Machine) (r : EStateM.Result Error Machine β) :
      Ends own w Q (.error e m) r

/-- Two runs from `w`, which end as if they had begun at `base`. -/
abbrev RunsFrom {α β : Type} (own : Option Nat) (base w : SideBySide S S')
    (Q : SideBySide S S' → α → β → Prop) (r : Run α) (r' : Run β) : Prop :=
  Ends own base Q (r w.left) (r' w.right)

abbrev Runs {α β : Type} (own : Option Nat) (w : SideBySide S S')
    (Q : SideBySide S S' → α → β → Prop) (r : Run α) (r' : Run β) : Prop :=
  RunsFrom own w w Q r r'

variable {α β γ δ : Type} {w base : SideBySide S S'} {P : SideBySide S S' → α → β → Prop}
  {Q : SideBySide S S' → γ → δ → Prop}

/-- The three ways in which two runs can end. -/
theorem Ends.cases {x : EStateM.Result Error Machine α} {y : EStateM.Result Error Machine β}
    (h : Ends own w P x y) :
    (∃ v a b, x = .ok a v.left ∧ y = .ok b v.right ∧ Leads own w v ∧ P v a b) ∨
      (∃ v e, x = .error e v.left ∧ y = .error e v.right ∧ Leads own w v) ∨
      ∃ e m, x = .error e m ∧ Cut S S' e := by
  cases h with
  | ok v hv h => exact .inl ⟨v, _, _, rfl, rfl, hv, h⟩
  | error v hv e => exact .inr (.inl ⟨v, e, rfl, rfl, hv⟩)
  | cut he m _ => exact .inr (.inr ⟨_, m, rfl, he⟩)

theorem Ends.imp {P' : SideBySide S S' → α → β → Prop} {x : EStateM.Result Error Machine α}
    {y : EStateM.Result Error Machine β} (h : Ends own w P x y)
    (hP : ∀ v a b, Leads own w v → P v a b → P' v a b) : Ends own w P' x y := by
  cases h with
  | ok v hv h => exact .ok v hv (hP _ _ _ hv h)
  | error v hv e => exact .error v hv e
  | cut he m _ => exact .cut he m _

theorem Ends.from (hw : Leads own base w) {x : EStateM.Result Error Machine α}
    {y : EStateM.Result Error Machine β} (h : Ends own w P x y) : Ends own base P x y := by
  cases h with
  | ok v hv h => exact .ok v (hw.trans hv) h
  | error v hv e => exact .error v (hw.trans hv) e
  | cut he m _ => exact .cut he m _

theorem Ends.widen {x : EStateM.Result Error Machine α} {y : EStateM.Result Error Machine β}
    (h : Ends none w P x y) : Ends own w P x y := by
  cases h with
  | ok v hv h => exact .ok v hv.widen h
  | error v hv e => exact .error v hv.widen e
  | cut he m _ => exact .cut he m _

theorem Ends.transNew (hv : Leads none base w) {i : Nat} (hi : base.right.heap.scopes.size ≤ i)
    {x : EStateM.Result Error Machine α} {y : EStateM.Result Error Machine β}
    (h : Ends (some i) w P x y) : Ends none base P x y := by
  cases h with
  | ok u hu h => exact .ok u (hv.transNew hi hu) h
  | error u hu e => exact .error u (hv.transNew hi hu) e
  | cut he m _ => exact .cut he m _

theorem Runs.pure {a : α} {b : β} (h : P w a b) : Runs own w P (pure a) (pure b) :=
  .ok w (.refl own w) h

theorem Runs.throw (e : Error) : Runs own w P (throw e) (throw e) := .error w (.refl own w) e

theorem Runs.mistyped (fault : TypeFault) :
    Runs own w P (Run.mistyped fault) (Run.mistyped fault) :=
  .throw (.mistyped fault)

/-- Runs one after the other. -/
theorem RunsFrom.bind {r : Run α} {r' : Run β} {f : α → Run γ} {f' : β → Run δ}
    (h : RunsFrom own base w P r r')
    (hf : ∀ v a b, Leads own base v → P v a b → RunsFrom own base v Q (f a) (f' b)) :
    RunsFrom own base w Q (r >>= f) (r' >>= f') := by
  show Ends own base Q (EStateM.bind r f w.left) (EStateM.bind r' f' w.right)
  unfold RunsFrom at h
  unfold EStateM.bind
  generalize r w.left = x at h
  generalize r' w.right = y at h
  cases h with
  | ok v hv h => exact hf v _ _ hv h
  | error v hv e => exact .error v hv e
  | cut he m y => exact .cut he m _

/-- Runs from `w` followed by runs that are seen from `base`. -/
theorem RunsFrom.after {r : Run α} {r' : Run β} {f : α → Run γ} {f' : β → Run δ}
    (hw : Leads own base w) (h : Runs none w P r r')
    (hf : ∀ v a b, Leads none w v → P v a b → RunsFrom own base v Q (f a) (f' b)) :
    RunsFrom own base w Q (r >>= f) (r' >>= f') := by
  unfold Runs RunsFrom at h
  have hfrom := (h.imp fun v a b hv hP => (⟨hv, hP⟩ : Leads none w v ∧ P v a b)).widen.from hw
  exact RunsFrom.bind hfrom fun v a b _ hP => hf v a b hP.1 hP.2

theorem Runs.bind {r : Run α} {r' : Run β} {f : α → Run γ} {f' : β → Run δ}
    (h : Runs none w P r r')
    (hf : ∀ v a b, Leads none w v → P v a b → Runs own v Q (f a) (f' b)) :
    Runs own w Q (r >>= f) (r' >>= f') :=
  .after (.refl own w) h fun v a b hv hP => (hf v a b hv hP).from hv.widen

/-- The same where the first runs may declare variables as well. -/
theorem Runs.andThen {r : Run α} {r' : Run β} {f : α → Run γ} {f' : β → Run δ}
    (h : Runs own w P r r')
    (hf : ∀ v a b, Leads own w v → P v a b → Runs own v Q (f a) (f' b)) :
    Runs own w Q (r >>= f) (r' >>= f') :=
  RunsFrom.bind h fun v a b hv hP => (hf v a b hv hP).from hv

/-! ## 3. Counters -/

/-- Changing counters leads on from two machines, as long as escapes are only added. -/
theorem leads_of_heap {v : SideBySide S S'} (hρ : v.ρ = w.ρ) (hleft : v.left.heap = w.left.heap)
    (hright : v.right.heap = w.right.heap) (he : w.right.escapes ≤ v.right.escapes) :
    Leads own w v := by
  refine ⟨hρ ▸ .refl _, fun i i' hi => .inl (hρ ▸ hi), hleft ▸ Nat.le_refl _,
    .of_scopes he fun i s hs => hright ▸ hs, fun hw => ?_⟩
  constructor
  · rw [hρ, hleft]
    exact hw.mark
  · rw [hρ]
    exact hw.scope
  · rw [hρ, hleft]
    exact hw.source
  · rw [hleft, hright]
    exact hw.nextMark
  · rw [hleft, hright]
    exact hw.nextSource
  · rw [hleft, hright]
    exact hw.size

theorem Runs.tick (hS : S.limits.Within S'.limits) :
    Runs own w (fun _ _ _ => True) (Run.tick S.limits) (Run.tick S'.limits) := by
  let v : SideBySide S S' :=
    { w with
      left := { w.left with steps := w.left.steps + 1 }
      right := { w.right with steps := w.right.steps + 1 }
      steps := congrArg (· + 1) w.steps }
  have hv : Leads own w v := leads_of_heap rfl rfl rfl (Nat.le_refl _)
  have hsteps := w.steps
  have hle := hS.steps
  unfold Runs RunsFrom Run.tick
  dsimp only
  split
  · next hl =>
    by_cases hlt : S.limits.steps < S'.limits.steps
    · exact .cut (cut_steps hlt) _ _
    · have heq : S'.limits.steps = S.limits.steps := by omega
      rw [heq, if_pos (by omega)]
      exact .error v hv _
  · rw [if_neg (by omega)]
    exact .ok v hv trivial

/-- The rounds that two loops may still take. -/
def RoundsAlike (S S' : Setting) (n n' : Nat) : Prop :=
  n ≤ n' ∧ (S.limits.steps = S'.limits.steps → n = n')

theorem RoundsAlike.succ {n n' : Nat} (h : RoundsAlike S S' (n + 1) n') :
    ∃ k, n' = k + 1 ∧ RoundsAlike S S' n k := by
  obtain ⟨k, rfl⟩ := Nat.exists_eq_add_one.mpr (Nat.lt_of_lt_of_le (Nat.succ_pos n) h.1)
  exact ⟨k, rfl, Nat.le_of_succ_le_succ h.1, fun heq => Nat.succ.inj (h.2 heq)⟩

theorem Runs.roundsLeft (hS : S.limits.Within S'.limits) :
    Runs own w (fun _ => RoundsAlike S S') (Eval.roundsLeft S) (Eval.roundsLeft S') := by
  have hsteps := w.steps
  have hle := hS.steps
  refine .ok w (.refl own w) ⟨?_, fun heq => ?_⟩
  · show S.limits.steps - w.left.steps + 1 ≤ S'.limits.steps - w.right.steps + 1
    omega
  · show S.limits.steps - w.left.steps + 1 = S'.limits.steps - w.right.steps + 1
    omega

theorem Runs.spent {n : Nat} {r : Run β} (hS : S.limits.Within S'.limits)
    (hn : RoundsAlike S S' 0 n) (hr : n = 0 → r = Eval.spent S') :
    Runs own w P (Eval.spent S) r := by
  by_cases hlt : S.limits.steps < S'.limits.steps
  · exact .cut (cut_steps hlt) _ _
  · have heq : S.limits.steps = S'.limits.steps := by
      have := hS.steps
      omega
    rw [hr (hn.2 heq).symm, Eval.spent, Eval.spent, heq]
    exact .throw _

/-! ## 4. Marks and variables -/

/-- The machines after giving out some marks. -/
def giveMarks (w : SideBySide S S') (k : Nat) : SideBySide S S' :=
  { w with
    ρ := w.ρ.withMarks w.left.heap.nextMark w.right.heap.nextMark k
    left := { w.left with heap := { w.left.heap with nextMark := w.left.heap.nextMark + k } }
    right := { w.right with heap := { w.right.heap with nextMark := w.right.heap.nextMark + k } }
    globals := w.globals.mono (w.ρ.le_withMarks _ _ _)
    heap := w.heap.newMarks k }

theorem Leads.giveMarks (w : SideBySide S S') (k : Nat) : Leads own w (w.giveMarks k) := by
  refine ⟨w.ρ.le_withMarks _ _ _, fun _ _ => .inl, Nat.le_refl _,
    .of_scopes (Nat.le_refl _) fun _ _ h => h,
    fun hd => ⟨fun a b => ?_, hd.scope, hd.source, congrArg (· + k) hd.nextMark, hd.nextSource,
      hd.size⟩⟩
  show (w.ρ.mark a b ∨ ∃ i < k, _ ∧ _) ↔ a = b ∧ a < w.left.heap.nextMark + k
  rw [hd.mark, ← hd.nextMark]
  exact Renaming.diagonal_insert _ k a b

theorem Runs.mark : Runs own w (fun v => v.ρ.mark) (Run.onHeap Heap.mark) (Run.onHeap Heap.mark) :=
  .ok (w.giveMarks 1) (.giveMarks w 1) (.inr ⟨0, Nat.one_pos, rfl, rfl⟩)

/-- A document becomes alike values on both sides. -/
theorem Runs.ofJson (j : Json) :
    Runs own w (fun v => Value.Alike v.ρ) (Run.onHeap fun h => h.ofJson j)
      (Run.onHeap fun h => h.ofJson j) := by
  obtain ⟨k, hm, hn, h⟩ := Value.ofJson_alike w.left.heap.nextMark w.right.heap.nextMark j
  have hleft : (w.giveMarks k).left = { w.left with heap := (w.left.heap.ofJson j).2 } := by
    simp only [SideBySide.giveMarks, Heap.ofJson, hm]
  have hright : (w.giveMarks k).right = { w.right with heap := (w.right.heap.ofJson j).2 } := by
    simp only [SideBySide.giveMarks, Heap.ofJson, hn]
  unfold Runs RunsFrom Run.onHeap
  dsimp only
  rw [← hleft, ← hright]
  exact .ok (w.giveMarks k) (.giveMarks w k) (h _ fun i hi => .inr ⟨i, hi, rfl, rfl⟩)

/-- A new source text has numbers that stand for each other. -/
theorem Runs.source :
    Runs own w (fun v => v.ρ.source) (Run.onHeap Heap.source) (Run.onHeap Heap.source) := by
  have hle := w.ρ.le_withSources w.left.heap.nextSource w.right.heap.nextSource 1
  let v : SideBySide S S' :=
    { w with
      ρ := w.ρ.withSources w.left.heap.nextSource w.right.heap.nextSource 1
      left := { w.left with heap := w.left.heap.source.2 }
      right := { w.right with heap := w.right.heap.source.2 }
      globals := w.globals.mono hle
      heap := w.heap.newSource }
  refine .ok v ⟨hle, fun _ _ => .inl, Nat.le_refl _, .of_scopes (Nat.le_refl _) fun _ _ h => h,
    fun hd => ⟨hd.mark, hd.scope, fun a b => ?_, hd.nextMark, congrArg (· + 1) hd.nextSource,
      hd.size⟩⟩ (.inr ⟨0, Nat.one_pos, rfl, rfl⟩)
  show (w.ρ.source a b ∨ ∃ i < 1, _ ∧ _) ↔ a = b ∧ a < w.left.heap.nextSource + 1
  rw [hd.source, ← hd.nextSource]
  exact Renaming.diagonal_insert _ 1 a b

theorem Runs.newArray {items items' : List Value} (h : ItemsAlike w.ρ items items') :
    Runs own w (fun v => Value.Alike v.ρ) (Run.newArray items) (Run.newArray items') :=
  Runs.bind .mark fun _ _ _ hv hm => .pure (.array hm (h.mono hv.le))

theorem Runs.newObject {fields fields' : Fields Value} (h : FieldsAlike w.ρ fields fields') :
    Runs own w (fun v => Value.Alike v.ρ) (Run.newObject fields) (Run.newObject fields') :=
  Runs.bind .mark fun _ _ _ hv hm => .pure (.object hm (h.mono hv.le))

/-- Scopes and sources that stand for each other. -/
structure EnvAlike (w : SideBySide S S') (env env' : Env) : Prop where
  scope : w.ρ.scope env.scope env'.scope
  source : w.ρ.source env.source env'.source

theorem EnvAlike.mono {v : SideBySide S S'} {env env' : Env} (hle : w.ρ.Le v.ρ)
    (h : EnvAlike w env env') : EnvAlike v env env' :=
  ⟨hle.scope _ _ h.scope, hle.source _ _ h.source⟩

theorem Runs.closure {env env' : Env} (henv : EnvAlike w env env') (f : Function) :
    Runs own w (fun v => Value.Alike v.ρ) (Eval.closure env f) (Eval.closure env' f) :=
  Runs.bind .mark fun _ _ _ hv hm =>
    .pure (.closure hm (hv.le.scope _ _ henv.scope) (hv.le.source _ _ henv.source))

theorem Runs.askHeap {f : Heap → α} {f' : Heap → β} (h : P w (f w.left.heap) (f' w.right.heap)) :
    Runs own w P (Run.askHeap f) (Run.askHeap f') := .ok w (.refl own w) h

theorem Runs.builtinObject (members : List Builtin) :
    Runs own w (fun v => Value.Alike v.ρ) (builtinObject members) (builtinObject members) := by
  refine .newObject (Fields.Rel.ofList (.refl_of_forall fun f hf => ?_))
  obtain ⟨b, _, rfl⟩ := List.mem_map.mp hf
  exact .plain rfl

theorem Runs.globalValue {name : String} {r : Run Value} (h : globalValue? name = some r) :
    Runs own w (fun v => Value.Alike v.ρ) r r := by
  unfold globalValue? at h
  split at h <;> cases h <;> first | exact .pure (.plain rfl) | exact .builtinObject _

/-- What a lookup gives: alike values, and what the variable of that name holds if there is one. -/
def Held (env' : Env) (name : String) (w : SideBySide S S') (x x' : Value) : Prop :=
  Value.Alike w.ρ x x' ∧ ∀ found, w.right.heap.find? env'.scope name = some found → x' = found.2

theorem Runs.lookup {env env' : Env} (henv : EnvAlike w env env') (name : String) :
    Runs none w (Held env' name) (Eval.lookup S env name) (Eval.lookup S' env' name) := by
  unfold Eval.lookup
  refine Runs.bind
    (P := fun v x x' => OptionAlike v.ρ x x' ∧ x' = v.right.heap.lookup? env'.scope name)
    (.askHeap ⟨w.heap.lookup? henv.scope name, rfl⟩) ?_
  rintro v x x' hv ⟨hx, hx'⟩
  have hi := v.heap.size_right (henv.mono hv.le).scope
  rw [Heap.lookup?] at hx'
  cases hx with
  | some h =>
    refine .pure ⟨h, fun found hfound => ?_⟩
    rw [hfound] at hx'
    exact Option.some.inj hx'
  | none =>
    -- there is no such variable, before the shared names are asked or after
    have hnone {u : SideBySide S S'} (hu : Leads none v u) (found : Nat × Value) :
        u.right.heap.find? env'.scope name ≠ some found := by
      intro hfound
      obtain ⟨x, hv⟩ := hu.follows.find?_fst hi hfound
      rw [hv] at hx'
      cases hx'
    have hg := v.globals.lookup name
    dsimp only
    generalize S.globals.lookup name = g at hg
    generalize S'.globals.lookup name = g' at hg
    cases hg with
    | some h => exact .pure ⟨h, fun found hfound => absurd hfound (hnone (.refl none v) found)⟩
    | none =>
      dsimp only
      cases hn : globalValue? name with
      | some r =>
        have hr : Runs none v (fun v => Value.Alike v.ρ) r r := Runs.globalValue hn
        exact Ends.imp hr fun u x x' hu hx =>
          ⟨hx, fun found hfound => absurd hfound (hnone hu found)⟩
      | none => exact .throw _

theorem Runs.isBound {env env' : Env} (henv : EnvAlike w env env') (name : String) :
    Runs none w (fun _ => Eq) (Eval.isBound S env name) (Eval.isBound S' env' name) := by
  unfold Eval.isBound
  refine Runs.bind (P := fun _ => Eq) (.askHeap ?_) fun v a b hv hab => .pure ?_
  · exact OptionAlike.isSome_eq (w.heap.lookup? henv.scope name)
  · rw [hab, OptionAlike.isSome_eq (v.globals.lookup name)]

/-! ## 5. Assignment -/

theorem assign_apply (env : Env) (name : String) (x : Value) (m : Machine) :
    Eval.assign env name x m =
      match m.heap.find? env.scope name with
      | some found =>
        .ok true { m with heap := m.heap.modifyVars found.1 (setVar name x) }
      | none => .ok false m := by
  unfold Eval.assign
  show (EStateM.bind _ _ m) = _
  simp only [EStateM.bind, Run.askHeap, Heap.assign?]
  cases m.heap.find? env.scope name <;> rfl

/-- The machines with a variable set in scopes that stand for each other. -/
def setVar (w : SideBySide S S') {i i' : Nat} (hi : w.ρ.scope i i') (name : String)
    {x x' : Value} (hx : Value.Alike w.ρ x x') : SideBySide S S' :=
  { w with
    left := { w.left with heap := w.left.heap.declare i name x }
    right := { w.right with heap := w.right.heap.declare i' name x' }
    heap := w.heap.declare hi name hx }

theorem Leads.setVar (hw : Leads own base w) {i i' : Nat} (hi : w.ρ.scope i i') (name : String)
    {x x' : Value} (hx : Value.Alike w.ρ x x')
    (hfollows : base.right.Follows own (w.setVar hi name hx).right) :
    Leads own base (w.setVar hi name hx) := by
  refine ⟨hw.le, hw.fresh, ?_, hfollows, fun hd => ?_⟩
  · show base.left.heap.scopes.size ≤ (w.left.heap.modifyVars i _).scopes.size
    rw [Heap.size_modifyVars]
    exact hw.size
  · have hd := hw.diagonal hd
    refine ⟨hd.mark, hd.scope, hd.source, hd.nextMark, hd.nextSource, ?_⟩
    show (w.left.heap.modifyVars i _).scopes.size = (w.right.heap.modifyVars i' _).scopes.size
    rw [Heap.size_modifyVars, Heap.size_modifyVars]
    exact hd.size

/-- An assignment, as seen from `base`, of a value that the variable held there unless an escape
was counted since. -/
theorem RunsFrom.assign (hw : Leads none base w) {env env' : Env} (henv : EnvAlike base env env')
    {x x' : Value} (hx : Value.Alike w.ρ x x') {name : String}
    (hheld : w.right.escapes = base.right.escapes → ∀ found,
      base.right.heap.find? env'.scope name = some found → x'.captured ⊆ found.2.captured) :
    RunsFrom none base w (fun v a b => a = b ∧ v.ρ = w.ρ) (Eval.assign env name x)
      (Eval.assign env' name x') := by
  have hfound := w.heap.find? (hw.le.scope _ _ henv.scope) name
  have hi := base.heap.size_right henv.scope
  unfold RunsFrom
  rw [assign_apply, assign_apply]
  -- scopes that stand for each other have the variable on both sides or on neither
  revert hfound
  cases w.left.heap.find? env.scope name with
  | none =>
    intro hfound
    cases hr : w.right.heap.find? env'.scope name with
    | none => exact .ok w hw ⟨rfl, rfl⟩
    | some _ => rw [hr] at hfound; cases hfound
  | some _ =>
    intro hfound
    cases hr : w.right.heap.find? env'.scope name with
    | none => rw [hr] at hfound; cases hfound
    | some _ =>
      rw [hr] at hfound
      cases hfound with
      | some hf =>
        exact .ok (w.setVar hf.1 name hx)
          (hw.setVar hf.1 name hx (hw.follows.assign hi hr hheld)) ⟨rfl, rfl⟩

theorem Runs.noteEscape (b : Bool) :
    Runs own w (fun v _ _ => w.right.escapes = v.right.escapes → b = false)
      (Run.noteEscape b) (Run.noteEscape b) := by
  cases b with
  | false => exact .ok w (.refl own w) fun _ => rfl
  | true =>
    let v : SideBySide S S' :=
      { w with
        left := { w.left with escapes := w.left.escapes + 1 }
        right := { w.right with escapes := w.right.escapes + 1 }
        escapes := congrArg (· + 1) w.escapes }
    refine .ok v (leads_of_heap rfl rfl rfl (Nat.le_succ _)) fun he => ?_
    have he : w.right.escapes = w.right.escapes + 1 := he
    omega

theorem Runs.store {env env' : Env} (henv : EnvAlike w env env') (name : String) {x x' : Value}
    (hx : Value.Alike w.ρ x x') :
    Runs none w (fun _ _ _ => True) (Eval.store env name x) (Eval.store env' name x') := by
  unfold Eval.store
  rw [Value.holdsClosure_eq hx]
  refine RunsFrom.bind (Runs.noteEscape x'.holdsClosure) fun v _ _ hv hquiet => ?_
  refine RunsFrom.bind (.assign hv henv (hx.mono hv.le) fun he _ _ => ?_) ?_
  · rw [Value.captured_eq_nil (hquiet he.symm)]
    exact List.nil_subset _
  · rintro u a _ hu ⟨rfl, _⟩
    cases a with
    | true => exact .ok u hu trivial
    | false => exact .error u hu _

theorem Runs.declare {env env' : Env} (henv : EnvAlike w env env') (name : String) {x x' : Value}
    (hx : Value.Alike w.ρ x x') :
    Runs (some env'.scope) w (fun _ _ _ => True)
      (Run.changeHeap fun h => h.declare env.scope name x)
      (Run.changeHeap fun h => h.declare env'.scope name x') :=
  .ok (w.setVar henv.scope name hx)
    ((Leads.refl _ w).setVar henv.scope name hx (.declare w.right env'.scope name x')) trivial

/-- Pushing onto an array that the variable held at `base`. -/
theorem RunsFrom.push (hw : Leads none base w) {env env' : Env} (henv : EnvAlike base env env')
    {name : String} {items items' args args' : List Value} (hitems : ItemsAlike w.ρ items items')
    (hargs : ItemsAlike w.ρ args args')
    (hheld : ∀ found, base.right.heap.find? env'.scope name = some found →
      Value.capturedItems items' ⊆ found.2.captured) :
    RunsFrom none base w (fun v => Value.Alike v.ρ) (Eval.push env name items args)
      (Eval.push env' name items' args') := by
  unfold Eval.push
  -- the variable is emptied first, which lets no closure into a scope
  refine RunsFrom.bind (.assign hw henv (.plain rfl) fun _ _ _ => List.nil_subset _) ?_
  rintro v a _ hv ⟨rfl, hρ⟩
  have hitems : ItemsAlike v.ρ items items' := hρ ▸ hitems
  have hargs : ItemsAlike v.ρ args args' := hρ ▸ hargs
  cases a with
  | false => exact .error v hv _
  | true =>
    have hany : args.any Value.holdsClosure = args'.any Value.holdsClosure :=
      hargs.any_eq fun _ _ => Value.holdsClosure_eq
    show RunsFrom none base v _ (Run.noteEscape _ >>= _) (Run.noteEscape _ >>= _)
    rw [hany]
    refine RunsFrom.after hv (.noteEscape _) fun u _ _ hu hquiet => ?_
    show RunsFrom none base u _
      (Run.onHeap Heap.mark >>= fun m => Eval.assign env name (.array m (items ++ args)) >>= _)
      (Run.onHeap Heap.mark >>= fun m => Eval.assign env' name (.array m (items' ++ args')) >>= _)
    refine RunsFrom.after (hv.trans hu) .mark fun t m m' ht hm => ?_
    have hgrown : ItemsAlike t.ρ (items ++ args) (items' ++ args') :=
      List.rel_append (hitems.mono (hu.le.trans ht.le)) (hargs.mono (hu.le.trans ht.le))
    have hbase := hv.trans (hu.trans ht)
    refine RunsFrom.bind (.assign hbase henv (.array hm hgrown) fun he found hf => ?_) ?_
    · -- no escape was counted, so the new items hold no closure
      have hle := hv.follows.escapes
      have hle' := hu.follows.escapes
      have hle'' := ht.follows.escapes
      have hnone := List.any_eq_false.mp (hquiet (by omega))
      intro i hi
      obtain ⟨x, hx, hix⟩ := Value.mem_capturedItems.mp hi
      rcases List.mem_append.mp hx with hx | hx
      · exact hheld found hf (Value.mem_capturedItems.mpr ⟨x, hx, hix⟩)
      · rw [Value.captured_eq_nil (Bool.eq_false_iff.mpr (hnone x hx))] at hix
        cases hix
    · rintro s _ _ hs ⟨rfl, _⟩
      rw [hgrown.length_eq]
      exact .ok s hs (.plain rfl)

/-! ## 6. Scopes that open and close -/

/-- The machines with a new scope each, inside scopes that stand for each other. -/
def enter (w : SideBySide S S') {p p' : Option Nat} (hp : Option.Rel w.ρ.scope p p')
    {vars vars' : List (String × Value)} (hvars : FieldsAlike w.ρ vars vars') : SideBySide S S' :=
  { w with
    ρ := w.ρ.withScopes w.left.heap.scopes.size w.right.heap.scopes.size 1
    left := { w.left with heap := (w.left.heap.addScope p vars).2 }
    right := { w.right with heap := (w.right.heap.addScope p' vars').2 }
    globals := w.globals.mono (w.ρ.le_withScopes _ _ _)
    heap := w.heap.addScope hp hvars }

theorem enter_scopes (w : SideBySide S S') {p p' : Option Nat} (hp : Option.Rel w.ρ.scope p p')
    {vars vars' : List (String × Value)} (hvars : FieldsAlike w.ρ vars vars') (i : Nat) (s : Scope)
    (hs : w.right.heap.scopes[i]? = some s) :
    (w.enter hp hvars).right.heap.scopes[i]? = some s := by
  have hlt := (Array.getElem?_eq_some_iff.mp hs).1
  show (w.right.heap.scopes.push _)[i]? = some s
  rw [Array.getElem?_push_lt hlt, ← hs, Array.getElem?_eq_getElem hlt]

theorem Leads.enter (w : SideBySide S S') {p p' : Option Nat} (hp : Option.Rel w.ρ.scope p p')
    {vars vars' : List (String × Value)} (hvars : FieldsAlike w.ρ vars vars') :
    Leads none w (w.enter hp hvars) := by
  refine ⟨w.ρ.le_withScopes _ _ _, ?_, ?_, .of_scopes (Nat.le_refl _) (w.enter_scopes hp hvars),
    fun hd => ⟨hd.mark, ?_, hd.source, hd.nextMark, hd.nextSource, ?_⟩⟩
  · rintro i i' (hi | ⟨k, _, rfl, rfl⟩)
    · exact .inl hi
    · exact .inr ⟨Nat.le_add_right _ k, Nat.le_add_right _ k⟩
  · show _ ≤ (w.left.heap.scopes.push _).size
    rw [Array.size_push]
    exact Nat.le_succ _
  · rintro a b (hab | ⟨k, _, rfl, rfl⟩)
    · exact hd.scope a b hab
    · rw [hd.size]
  · show (w.left.heap.scopes.push _).size = (w.right.heap.scopes.push _).size
    rw [Array.size_push, Array.size_push, hd.size]

/-- Scopes made since, outside all others. -/
def Opened (w v : SideBySide S S') (env env' : Env) : Prop :=
  EnvAlike v env env' ∧ w.right.heap.scopes.size ≤ env'.scope

theorem Runs.openScope {vars vars' : List (String × Value)} (hvars : FieldsAlike w.ρ vars vars')
    {s s' : Nat} (hs : w.ρ.source s s') :
    Runs none w (Opened w) (Run.openScope vars s) (Run.openScope vars' s') :=
  .ok (w.enter .none hvars) (.enter w .none hvars)
    ⟨⟨.inr ⟨0, Nat.one_pos, rfl, rfl⟩, hs⟩, Nat.le_refl _⟩

theorem Runs.openTop {vars vars' : List (String × Value)} (hvars : FieldsAlike w.ρ vars vars') :
    Runs none w (Opened w) (Run.openTop vars) (Run.openTop vars') := by
  refine Runs.bind .source fun v _ _ hv hs => ?_
  refine Ends.imp (Runs.openScope (hvars.mono hv.le) hs) fun u _ _ _ h => ?_
  exact ⟨h.1, Nat.le_trans hv.follows.size_le h.2⟩

/-- Runs in scopes made since. -/
theorem Runs.inOpened {r : Run Env} {r' : Run Env} {f : Env → Run γ} {f' : Env → Run δ}
    (h : Runs none w (Opened w) r r')
    (hf : ∀ v env env', EnvAlike v env env' → Leads none w v →
      Runs (some env'.scope) v Q (f env) (f' env')) :
    Runs none w Q (r >>= f) (r' >>= f') := by
  exact RunsFrom.after (.refl _ w) h fun v env env' hv henv =>
    Ends.transNew hv henv.2 (hf v env env' henv.1 hv)

end SideBySide

/-- Whether a finished scope may be emptied: nothing that may need it got out since `escapes` were
counted. -/
def Machine.mayRelease (m : Machine) (escapes : Nat) (out : Option Value) : Bool :=
  m.escapes == escapes && !out.any Value.holdsClosure

/-- A machine after the release of a scope. -/
def Machine.released (m : Machine) (S : Setting) (scope escapes : Nat) (out : Option Value) :
    Machine :=
  { m with heap := m.heap.clearIf (S.releases && m.mayRelease escapes out) scope }

theorem release_apply (S : Setting) (scope escapes : Nat) (out : Option Value) (m : Machine) :
    Run.release S scope escapes out m = .ok () (m.released S scope escapes out) := by
  unfold Run.release Machine.released Machine.mayRelease
  rw [Bool.and_assoc]
  cases S.releases && (m.escapes == escapes && !out.any Value.holdsClosure) <;> rfl

theorem released_of_not (m : Machine) (S : Setting) (scope : Nat) {escapes : Nat}
    {out : Option Value} (h : m.mayRelease escapes out = false) :
    m.released S scope escapes out = m := by
  unfold Machine.released
  rw [h, Bool.and_false]
  rfl

/-- Code in a scope of its own: the scope is made, the body runs in it, and it is released. -/
theorem inScope_apply {α : Type} (S : Setting) (env : Env) (parent : Nat)
    (vars : List (String × Value)) (handedOn : α → Option Value) (body : Env → Run α)
    (m : Machine) :
    Eval.inScope S env parent vars handedOn body m =
      match body { env with scope := m.heap.scopes.size }
        { m with heap := (m.heap.addScope (some parent) vars).2 } with
      | .ok a n => .ok a (n.released S m.heap.scopes.size m.escapes (handedOn a))
      | .error e n => .error e (n.released S m.heap.scopes.size m.escapes none) := by
  unfold Eval.inScope
  show EStateM.bind (Run.attempt (body { env with scope := m.heap.scopes.size })) _
    { m with heap := (m.heap.addScope (some parent) vars).2 } = _
  unfold EStateM.bind Run.attempt
  cases body { env with scope := m.heap.scopes.size }
      { m with heap := (m.heap.addScope (some parent) vars).2 } with
  | ok a n =>
    show EStateM.bind (Run.release S _ _ (handedOn a)) _ n = _
    unfold EStateM.bind
    rw [release_apply]
    rfl
  | error e n =>
    show EStateM.bind (Run.release S _ _ none) _ n = _
    unfold EStateM.bind
    rw [release_apply]
    rfl

namespace SideBySide

variable {α β : Type} {S S' : Setting} {w : SideBySide S S'}

section Leave

variable {p p' : Option Nat} {hp : Option.Rel w.ρ.scope p p'} {vars vars' : List (String × Value)}
  {hvars : FieldsAlike w.ρ vars vars'} {u : SideBySide S S'}

/-- When no escape was counted since `w`, what stood for each other then has no way to what came
later, so scopes made since may be emptied on either side. -/
theorem Leads.heap_leave (hu : Leads none w u) (hquiet : u.right.escapes = w.right.escapes)
    (b b' : Bool) :
    (u.left.heap.clearIf b w.left.heap.scopes.size).Alike { u.ρ with scope := w.ρ.scope }
      (u.right.heap.clearIf b' w.right.heap.scopes.size) := by
  have hold : ∀ i i', u.ρ.scope i i' → i < w.left.heap.scopes.size ∨ i' < w.right.heap.scopes.size →
      w.ρ.scope i i' := by
    intro i i' hi hlt
    rcases hu.fresh i i' hi with hi | hi
    · exact hi
    · omega
  refine u.heap.restrict hu.le.scope (fun i i' j j' hi hj hjj => ?_)
    (fun i i' s' hi hs' j j' hj hjj => ?_) (by simp) (by simp) (by simp) (by simp)
    fun i i' hi => ⟨?_, ?_⟩
  · exact hold j j' hjj (.inl (Nat.lt_trans hj (w.heap.size_left hi)))
  · -- the scope captured `j'` before, when all that it captured stood for something
    obtain ⟨s, t, hs, ht, hst⟩ := w.heap.scope i i' hi
    obtain ⟨t', ht', hfollows⟩ := hu.follows.scope i' t ht
    rw [hs'] at ht'
    cases ht'
    have hj := hfollows.captured hquiet (fun h => by cases h) hj
    obtain ⟨k, _, hk⟩ := exists_of_mem_right (Value.capturedFields_alike hst.vars) hj
    exact hold j j' hjj (.inr (w.heap.size_right hk))
  · exact Heap.scopes_clearIf _ _ _ (Nat.ne_of_lt (w.heap.size_left hi))
  · exact Heap.scopes_clearIf _ _ _ (Nat.ne_of_lt (w.heap.size_right hi))

/-- Leaving the scopes that `w` entered.  What stood for each other before does so again; when the
scopes may be emptied, no other scopes do. -/
theorem Leads.leave (hu : Leads (some w.right.heap.scopes.size) (w.enter hp hvars) u)
    {out out' : Option Value}
    (hout : out.any Value.holdsClosure = out'.any Value.holdsClosure) :
    ∃ t : SideBySide S S',
      t.left = u.left.released S w.left.heap.scopes.size w.left.escapes out ∧
      t.right = u.right.released S' w.right.heap.scopes.size w.right.escapes out' ∧
      Leads none w t ∧ t.ρ.mark = u.ρ.mark ∧ t.ρ.source = u.ρ.source ∧
      (out.any Value.holdsClosure = true → t.ρ = u.ρ) := by
  have hwu := (Leads.enter w hp hvars).transNew (Nat.le_refl _) hu
  have hsame : u.left.mayRelease w.left.escapes out = u.right.mayRelease w.right.escapes out' := by
    unfold Machine.mayRelease
    rw [u.escapes, w.escapes, hout]
  -- both sides decide alike whether to empty, as they counted the same escapes and hand out the
  -- same
  cases hmay : u.right.mayRelease w.right.escapes out' with
  | false =>
    refine ⟨u, ?_, ?_, hwu, rfl, rfl, fun _ => rfl⟩
    · rw [released_of_not _ _ _ (hsame.trans hmay)]
    · rw [released_of_not _ _ _ hmay]
  | true =>
    obtain ⟨hquiet, hnone⟩ := Bool.and_eq_true_iff.mp hmay
    have hquiet := beq_iff_eq.mp hquiet
    have hle : w.ρ.Le { u.ρ with scope := w.ρ.scope } :=
      ⟨hwu.le.mark, fun _ _ h => h, hwu.le.source⟩
    -- the emptied scopes stand for none: only those that were open before are related again
    let t : SideBySide S S' :=
      { u with
        ρ := { u.ρ with scope := w.ρ.scope }
        left := u.left.released S w.left.heap.scopes.size w.left.escapes out
        right := u.right.released S' w.right.heap.scopes.size w.right.escapes out'
        globals := w.globals.mono hle
        heap := hwu.heap_leave hquiet _ _ }
    refine ⟨t, rfl, rfl, ⟨hle, fun _ _ => .inl, ?_, ?_, fun hd => ?_⟩, rfl, rfl, fun h => ?_⟩
    · show _ ≤ (u.left.heap.clearIf _ _).scopes.size
      rw [Heap.size_clearIf]
      exact hwu.size
    · exact hwu.follows.clearIf (Nat.le_refl _) _
    · have hud := hwu.diagonal hd
      refine ⟨fun a b => ?_, hd.scope, fun a b => ?_, ?_, ?_, ?_⟩
      · show u.ρ.mark a b ↔ a = b ∧ a < (u.left.heap.clearIf _ _).nextMark
        rw [Heap.nextMark_clearIf]
        exact hud.mark a b
      · show u.ρ.source a b ↔ a = b ∧ a < (u.left.heap.clearIf _ _).nextSource
        rw [Heap.nextSource_clearIf]
        exact hud.source a b
      · show (u.left.heap.clearIf _ _).nextMark = (u.right.heap.clearIf _ _).nextMark
        rw [Heap.nextMark_clearIf, Heap.nextMark_clearIf, hud.nextMark]
      · show (u.left.heap.clearIf _ _).nextSource = (u.right.heap.clearIf _ _).nextSource
        rw [Heap.nextSource_clearIf, Heap.nextSource_clearIf, hud.nextSource]
      · show (u.left.heap.clearIf _ _).scopes.size = (u.right.heap.clearIf _ _).scopes.size
        rw [Heap.size_clearIf, Heap.size_clearIf, hud.size]
    · rw [hout] at h
      rw [h] at hnone
      cases hnone

end Leave

/-- Code in a scope of its own, from bodies that run alike in it. -/
theorem Runs.inScope {env env' : Env} (hsource : w.ρ.source env.source env'.source) {p p' : Nat}
    (hp : w.ρ.scope p p') {vars vars' : List (String × Value)} (hvars : FieldsAlike w.ρ vars vars')
    {Q : SideBySide S S' → α → β → Prop} {handedOn : α → Option Value}
    {handedOn' : β → Option Value}
    (hout : ∀ v a b, Q v a b → (handedOn a).any Value.holdsClosure =
      (handedOn' b).any Value.holdsClosure)
    (hQ : ∀ v u a b, Q v a b → v.ρ.mark = u.ρ.mark → v.ρ.source = u.ρ.source →
      ((handedOn a).any Value.holdsClosure = true → v.ρ = u.ρ) → Q u a b)
    {body : Env → Run α} {body' : Env → Run β}
    (hbody : ∀ v i i', Leads none w v → EnvAlike v ⟨i, env.source⟩ ⟨i', env'.source⟩ →
      Runs (some i') v Q (body ⟨i, env.source⟩) (body' ⟨i', env'.source⟩)) :
    Runs none w Q (Eval.inScope S env p vars handedOn body)
      (Eval.inScope S' env' p' vars' handedOn' body') := by
  have hp : Option.Rel w.ρ.scope (some p) (some p') := .some hp
  have hin := Leads.enter w hp hvars
  have hbody := hbody (w.enter hp hvars) w.left.heap.scopes.size w.right.heap.scopes.size hin
    ⟨.inr ⟨0, Nat.one_pos, rfl, rfl⟩, hin.le.source _ _ hsource⟩
  unfold Runs RunsFrom at hbody ⊢
  rw [inScope_apply, inScope_apply]
  change Ends _ _ _ (body ⟨w.left.heap.scopes.size, env.source⟩ (w.enter hp hvars).left)
    (body' ⟨w.right.heap.scopes.size, env'.source⟩ (w.enter hp hvars).right) at hbody
  change Ends none w Q
    (match body ⟨w.left.heap.scopes.size, env.source⟩ (w.enter hp hvars).left with
      | .ok a n => _
      | .error e n => _)
    (match body' ⟨w.right.heap.scopes.size, env'.source⟩ (w.enter hp hvars).right with
      | .ok a n => _
      | .error e n => _)
  -- the body's runs become variables, so that the case split is on how they end
  generalize body ⟨w.left.heap.scopes.size, env.source⟩ (w.enter hp hvars).left = x at *
  generalize body' ⟨w.right.heap.scopes.size, env'.source⟩ (w.enter hp hvars).right = y at *
  cases hbody with
  | ok u hu h =>
    obtain ⟨t, hleft, hright, ht, hmark, hsource, hρ⟩ := hu.leave (hout u _ _ h)
    dsimp only
    rw [← hleft, ← hright]
    exact .ok t ht (hQ u t _ _ h hmark.symm hsource.symm fun hc => (hρ hc).symm)
  | error u hu e =>
    have hout : (none : Option Value).any Value.holdsClosure =
      (none : Option Value).any Value.holdsClosure := rfl
    obtain ⟨t, hleft, hright, ht, _⟩ := hu.leave hout
    dsimp only
    rw [← hleft, ← hright]
    exact .error t ht e
  | cut he m y => exact .cut he _ _

/-! ## 7. Counted calls and levels -/

/-- The machines with other counts of calls and levels. -/
def atCounts (w : SideBySide S S') (d d' n n' : Gauge) (hd : d = d') (hn : n = n') :
    SideBySide S S' :=
  { w with
    left := { w.left with depth := d, nesting := n }
    right := { w.right with depth := d', nesting := n' }
    depth := hd
    nesting := hn }

theorem Leads.atCounts {base : SideBySide S S'} {own : Option Nat} (hw : Leads own base w)
    (d d' n n' : Gauge) (hd : d = d') (hn : n = n') :
    Leads own base (w.atCounts d d' n n' hd hn) :=
  hw.trans (leads_of_heap rfl rfl rfl (Nat.le_refl _))

end SideBySide

/-- The outcome of a run with its machine changed. -/
def leaving {α : Type} (f : Machine → Machine) :
    EStateM.Result Error Machine α → EStateM.Result Error Machine α
  | .ok a m => .ok a (f m)
  | .error e m => .error e (f m)

theorem counted_apply {α : Type} (S : Setting) (r : Run α) (m : Machine) :
    Eval.counted S r m =
      if S.limits.depth ≤ m.depth.now then .error (.tooManyCalls S.limits.depth) m
      else leaving (fun n => { n with depth := n.depth.down })
        (r { m with depth := m.depth.up }) := by
  unfold Eval.counted
  show (if S.limits.depth ≤ m.depth.now then _ else _ : Run α) m = _
  split
  · rfl
  · show EStateM.bind (Run.attempt r) _ { m with depth := m.depth.up } = _
    unfold EStateM.bind Run.attempt
    cases r { m with depth := m.depth.up } <;> rfl

theorem nested_apply {α : Type} (r : Run α) (m : Machine) :
    Eval.nested r m =
      if maxNesting ≤ m.nesting.now then .error (.tooNested maxNesting) m
      else
        leaving (fun n => { n with nesting := n.nesting.down })
          (r { m with nesting := m.nesting.up }) := by
  unfold Eval.nested
  show (if maxNesting ≤ m.nesting.now then _ else _ : Run α) m = _
  split
  · rfl
  · show EStateM.bind (Run.attempt r) _ { m with nesting := m.nesting.up } = _
    unfold EStateM.bind Run.attempt
    cases r { m with nesting := m.nesting.up } <;> rfl

namespace SideBySide

section Counts

variable {own : Option Nat} {Q : SideBySide S S' → α → β → Prop}
  (hQ : ∀ v u a b, Q v a b → v.ρ = u.ρ → v.right.heap = u.right.heap → Q u a b)
include hQ

/-- Runs that end alike do so when they give back counts. -/
theorem Ends.leaving (f g : Gauge → Gauge) {x : EStateM.Result Error Machine α}
    {y : EStateM.Result Error Machine β} (h : Ends own w Q x y) :
    Ends own w Q
      (Snippet.leaving (fun n => { n with depth := f n.depth, nesting := g n.nesting }) x)
      (Snippet.leaving (fun n => { n with depth := f n.depth, nesting := g n.nesting }) y) := by
  cases h with
  | ok v hv h =>
    have hd := congrArg f v.depth
    have hn := congrArg g v.nesting
    exact .ok (v.atCounts _ _ _ _ hd hn) (hv.atCounts _ _ _ _ hd hn) (hQ _ _ _ _ h rfl rfl)
  | error v hv e =>
    have hd := congrArg f v.depth
    have hn := congrArg g v.nesting
    exact .error (v.atCounts _ _ _ _ hd hn) (hv.atCounts _ _ _ _ hd hn) e
  | cut he m y => exact .cut he _ _

variable {r : Run α} {r' : Run β} (h : ∀ v, Leads none w v → Runs own v Q r r')
include h

/-- A call counts while it runs, and fails when there are too many. -/
theorem Runs.counted (hS : S.limits.Within S'.limits) :
    Runs own w Q (Eval.counted S r) (Eval.counted S' r') := by
  have hdepth : w.left.depth.now = w.right.depth.now := congrArg Gauge.now w.depth
  have hle := hS.depth
  unfold Runs RunsFrom
  rw [counted_apply, counted_apply]
  split
  · next hl =>
    by_cases hlt : S.limits.depth < S'.limits.depth
    · exact .cut (cut_depth hlt) _ _
    · have heq : S'.limits.depth = S.limits.depth := by omega
      rw [heq, if_pos (by omega)]
      exact .error w (.refl _ w) _
  · rw [if_neg (by omega)]
    have hin := (Leads.refl none w).atCounts w.left.depth.up w.right.depth.up _ _
      (congrArg Gauge.up w.depth) w.nesting
    exact Ends.leaving hQ Gauge.down id ((h _ hin).from hin.widen)

/-- An expression or a statement counts while it runs. -/
theorem Runs.nested : Runs own w Q (Eval.nested r) (Eval.nested r') := by
  have hnesting : w.left.nesting.now = w.right.nesting.now := congrArg Gauge.now w.nesting
  unfold Runs RunsFrom
  rw [nested_apply, nested_apply, hnesting]
  split
  · exact .error w (.refl _ w) _
  · have hin := (Leads.refl none w).atCounts _ _ w.left.nesting.up w.right.nesting.up w.depth
      (congrArg Gauge.up w.nesting)
    exact Ends.leaving hQ id Gauge.down ((h _ hin).from hin.widen)

end Counts

end SideBySide

end TraceViewer.Snippet
