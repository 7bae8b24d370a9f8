import TraceViewer.Proofs.Snippet.EvalAlike

/-!
# Emptied scopes are never missed

A finished scope is emptied unless a closure may have got out of it.  `askAll_releasing_eq_keeping`
says that no client can tell: whatever it asks of an interpreter, one request after another, an
interpreter that empties scopes and one that keeps them give the same answers after the same
steps, and every scope that the client still has a way to holds the same variables in both.
-/

namespace TraceViewer.Snippet

/-! ## 1. What can be reached -/

/-- The scopes that there is a way to from some: the scopes around them and those of the closures
in their variables. -/
inductive Heap.Reaches (h : Heap) (held : List Nat) : Nat → Prop
  | held {i : Nat} (hi : i ∈ held) : Heap.Reaches h held i
  | parent {i p : Nat} {s : Scope} (hi : Heap.Reaches h held i) (hs : h.scopes[i]? = some s)
      (hp : s.parent = some p) : Heap.Reaches h held p
  | captured {i j : Nat} {s : Scope} (hi : Heap.Reaches h held i) (hs : h.scopes[i]? = some s)
      (hj : j ∈ Value.capturedFields s.vars) : Heap.Reaches h held j

/-- What a client has of an interpreter: its machine, and the scopes that were handed to it, by
themselves or in closures. -/
structure Client where
  machine : Machine
  held : List Nat := []

namespace Client

/-- The numbers that the values of a client may have in them. -/
def numbers (c : Client) : Renaming where
  mark a b := a = b ∧ a < c.machine.heap.nextMark
  scope a b := a = b ∧ c.machine.heap.Reaches c.held a
  source a b := a = b ∧ a < c.machine.heap.nextSource

theorem numbers_faithful (c : Client) : c.numbers.Faithful :=
  ⟨Renaming.oneToOne_eq.mono fun _ _ h => h.1, Renaming.oneToOne_eq.mono fun _ _ h => h.1,
    Renaming.oneToOne_eq.mono fun _ _ h => h.1⟩

/-- A heap is alike to itself in what a client has a way to when each such scope is. -/
theorem heap_alike {c : Client} (h : ∀ i, c.machine.heap.Reaches c.held i →
      ∃ s, c.machine.heap.scopes[i]? = some s ∧ s.Alike c.numbers i i s) :
    c.machine.heap.Alike c.numbers c.machine.heap := by
  refine ⟨c.numbers_faithful, ?_, ?_, ?_⟩
  · rintro a _ ⟨rfl, ha⟩
    exact ⟨ha, ha⟩
  · rintro a _ ⟨rfl, ha⟩
    exact ⟨ha, ha⟩
  · rintro i _ ⟨rfl, hi⟩
    obtain ⟨s, hs, hss⟩ := h i hi
    exact ⟨s, s, hs, hs, hss⟩

/-- A value that a client can have: all its numbers were given out, and there is a way to the scopes
of its closures. -/
def Has (c : Client) (v : Value) : Prop := Value.Alike c.numbers v v

/-- The names that all snippets share hold what the client was handed, and no number in what there
is a way to was made up. -/
structure Sound (c : Client) (S : Setting) : Prop where
  shared : Value.capturedFields S.globals ⊆ c.held
  globals : FieldsAlike c.numbers S.globals S.globals
  heap : c.machine.heap.Alike c.numbers c.machine.heap

end Client

/-! ## 2. Requests -/

/-- What a client asks for: a new scope outside all others, the value of a document, the value of an
expression, a run of a program, or a call. -/
inductive Request where
  | openTop (vars : List (String × Value))
  | document (j : Json)
  | eval (env : Env) (e : Expr)
  | run (env : Env) (program : List Stmt)
  | call (callee : Value) (args : List Value)

/-- What a client is given. -/
inductive Reply where
  | top (env : Env)
  | value (v : Option Value)

/-- The scopes that a reply hands to a client. -/
def Reply.scopes : Reply → List Nat
  | .top env => [env.scope]
  | .value v => v.elim [] Value.captured

namespace Request

def perform (S : Setting) : Request → Run Reply
  | .openTop vars => return .top (← Run.openTop vars)
  | .document j => return .value (some (← Run.onHeap fun h => h.ofJson j))
  | .eval env e => return .value (some (← runExpr S env e))
  | .run env program => return .value (← runProgram S env program)
  | .call callee args => return .value (some (← runCall S callee args))

/-- Requests that name only what the client can have. -/
def Allowed (c : Client) : Request → Prop
  | .openTop vars => FieldsAlike c.numbers vars vars
  | .document _ => True
  | .eval env _ | .run env _ =>
    c.numbers.scope env.scope env.scope ∧ c.numbers.source env.source env.source
  | .call callee args => c.Has callee ∧ ItemsAlike c.numbers args args

end Request

/-- The outcome of a request, and the steps that the interpreter has taken by then. -/
structure Answer where
  outcome : Except Error Reply
  steps : Nat

namespace Client

/-- Makes a request, and takes what it hands on. -/
def ask (c : Client) (S : Setting) (q : Request) : Answer × Client :=
  match q.perform S c.machine with
  | .ok reply m => (⟨.ok reply, m.steps⟩, ⟨m, reply.scopes ++ c.held⟩)
  | .error e m => (⟨.error e, m.steps⟩, ⟨m, c.held⟩)

/-- Makes one request after another. -/
def askAll (c : Client) (S : Setting) : List Request → List Answer × Client
  | [] => ([], c)
  | q :: rest =>
    let (answer, c) := c.ask S q
    let (answers, c) := c.askAll S rest
    (answer :: answers, c)

/-- Each request names only what the client can have by then. -/
def AllAllowed (c : Client) (S : Setting) : List Request → Prop
  | [] => True
  | q :: rest => q.Allowed c ∧ (c.ask S q).2.AllAllowed S rest

end Client

/-! ## 3. Clients side by side -/

/-- Clients of machines side by side, which have been handed the same scopes. -/
structure ClientsAlike {S S' : Setting} (w : SideBySide S S') (c c' : Client) : Prop where
  left : w.left = c.machine
  right : w.right = c'.machine
  held : c.held = c'.held
  diagonal : w.Diagonal
  scopes : ∀ i ∈ c.held, w.ρ.scope i i

/-- Replies with alike values. -/
inductive RepliesAlike {S S' : Setting} (w : SideBySide S S') : Reply → Reply → Prop
  | top {env env' : Env} (h : w.EnvAlike env env') : RepliesAlike w (.top env) (.top env')
  | value {v v' : Option Value} (h : OptionAlike w.ρ v v') : RepliesAlike w (.value v) (.value v')

theorem RepliesAlike.eq {S S' : Setting} {w : SideBySide S S'} (hd : w.Diagonal)
    {r r' : Reply} (h : RepliesAlike w r r') : r = r' := by
  cases h with
  | top henv =>
    rename_i env env'
    obtain ⟨scope, source⟩ := env
    obtain ⟨scope', source'⟩ := env'
    cases hd.scope _ _ henv.scope
    cases hd.ρ.source _ _ henv.source
    rfl
  | value hv =>
    cases hv with
    | none => rfl
    | some hv => rw [Value.Alike.eq hd.ρ hv]

/-- The scopes that a reply hands on stand for something. -/
theorem RepliesAlike.scopes {S S' : Setting} {w : SideBySide S S'} {r r' : Reply}
    (h : RepliesAlike w r r') : List.Forall₂ w.ρ.scope r.scopes r'.scopes := by
  cases h with
  | top henv => exact .cons henv.scope .nil
  | value hv =>
    cases hv with
    | none => exact .nil
    | some hv => exact Value.captured_alike hv

section Clients

variable {S S' : Setting} {w : SideBySide S S'} {c c' : Client}

/-- All that the client has a way to stands for itself. -/
theorem ClientsAlike.reaches (h : ClientsAlike w c c') {i : Nat}
    (hi : c.machine.heap.Reaches c.held i) : w.ρ.scope i i := by
  -- scopes around and scopes captured are related to some scope, which the diagonal says is the
  -- same
  induction hi with
  | held hi => exact h.scopes _ hi
  | parent _ hs hp ih =>
    obtain ⟨s, s', hl, _, hss⟩ := w.heap.scope _ _ ih
    rw [h.left, hs] at hl
    cases hl
    have hparent := hss.parent
    rw [hp] at hparent
    generalize s'.parent = p' at hparent
    cases hparent with
    | some hq =>
      have hpq := hq.2.2
      rwa [← h.diagonal.scope _ _ hpq] at hpq
  | captured _ hs hj ih =>
    obtain ⟨s, s', hl, _, hss⟩ := w.heap.scope _ _ ih
    rw [h.left, hs] at hl
    cases hl
    obtain ⟨j', _, hjj⟩ := exists_of_mem_right (Value.capturedFields_alike hss.vars).flip hj
    have hjj : w.ρ.scope _ j' := hjj
    rwa [← h.diagonal.scope _ _ hjj] at hjj

theorem ClientsAlike.numbers_le (h : ClientsAlike w c c') : c.numbers.Le w.ρ := by
  refine ⟨?_, ?_, ?_⟩
  · rintro a b hab
    rw [h.diagonal.mark, h.left]
    exact hab
  · rintro a b ⟨rfl, ha⟩
    exact h.reaches ha
  · rintro a b hab
    rw [h.diagonal.source, h.left]
    exact hab

theorem ClientsAlike.source (h : ClientsAlike w c c') {a : Nat}
    (ha : a < c.machine.heap.nextSource) : w.ρ.source a a :=
  h.numbers_le.source a a ⟨rfl, ha⟩

/-- The same request runs alike on both machines. -/
theorem Request.perform_alike (hS : S.limits.Within S'.limits) (h : ClientsAlike w c c')
    {q : Request} (hq : q.Allowed c) :
    ∃ own, w.Runs own RepliesAlike (q.perform S) (q.perform S') := by
  have hle := h.numbers_le
  cases q with
  | openTop vars =>
    exact ⟨none, SideBySide.Runs.bind (.openTop (FieldsAlike.mono hle hq)) fun _ _ _ _ h =>
      .pure (.top h.1)⟩
  | document j =>
    exact ⟨none, SideBySide.Runs.bind (.ofJson j) fun _ _ _ _ h => .pure (.value (.some h))⟩
  | eval env e =>
    have henv : w.EnvAlike env env := ⟨hle.scope _ _ hq.1, hle.source _ _ hq.2⟩
    exact ⟨none, SideBySide.Runs.bind (.runExpr hS henv e) fun _ _ _ _ h =>
      .pure (.value (.some h))⟩
  | run env program =>
    have henv : w.EnvAlike env env := ⟨hle.scope _ _ hq.1, hle.source _ _ hq.2⟩
    exact ⟨some env.scope, SideBySide.Runs.andThen (.runProgram hS henv program) fun _ _ _ _ h =>
      .pure (.value h)⟩
  | call callee args =>
    have hcall := SideBySide.Runs.runCall hS (hq.1.mono hle) (ItemsAlike.mono hle hq.2)
    exact ⟨none, SideBySide.Runs.bind hcall fun _ _ _ _ h => .pure (.value (.some h))⟩

/-- Clients of machines side by side get the same answer, and are side by side again. -/
theorem ClientsAlike.ask (hS : S.limits = S'.limits) (h : ClientsAlike w c c') {q : Request}
    (hq : q.Allowed c) :
    (c.ask S q).1 = (c'.ask S' q).1 ∧
      ∃ v : SideBySide S S', ClientsAlike v (c.ask S q).2 (c'.ask S' q).2 := by
  obtain ⟨own, hrun⟩ := Request.perform_alike (hS ▸ ⟨Nat.le_refl _, Nat.le_refl _⟩) h hq
  unfold SideBySide.Runs SideBySide.RunsFrom at hrun
  rw [h.left, h.right] at hrun
  unfold Client.ask
  generalize q.perform S c.machine = x at hrun
  generalize q.perform S' c'.machine = y at hrun
  -- both runs end alike; being cut by a limit is out, as the limits are the same
  cases hrun with
  | ok v hv hreply =>
    have hd := hv.diagonal h.diagonal
    have hscopes := hreply.scopes
    cases hreply.eq hd
    refine ⟨?_, v, rfl, rfl, congrArg (_ ++ ·) h.held, hd, fun i hi => ?_⟩
    · dsimp only
      rw [v.steps]
    · rcases List.mem_append.mp hi with hi | hi
      · obtain ⟨j, _, hji⟩ := exists_of_mem_right hscopes hi
        rwa [hd.scope _ _ hji] at hji
      · exact hv.le.scope _ _ (h.scopes i hi)
  | error v hv e =>
    refine ⟨?_, v, rfl, rfl, h.held, hv.diagonal h.diagonal,
      fun i hi => hv.le.scope _ _ (h.scopes i hi)⟩
    dsimp only
    rw [v.steps]
  | cut he _ _ => exact absurd he (SideBySide.not_cut hS _)

theorem ClientsAlike.askAll (hS : S.limits = S'.limits) (h : ClientsAlike w c c')
    {requests : List Request} (hr : c.AllAllowed S requests) :
    (c.askAll S requests).1 = (c'.askAll S' requests).1 ∧
      ∃ v : SideBySide S S',
        ClientsAlike v (c.askAll S requests).2 (c'.askAll S' requests).2 := by
  induction requests generalizing w c c' with
  | nil => exact ⟨rfl, w, h⟩
  | cons q rest ih =>
    obtain ⟨hanswer, v, hv⟩ := h.ask hS hr.1
    obtain ⟨hanswers, u, hu⟩ := ih hv hr.2
    refine ⟨?_, u, hu⟩
    simp only [Client.askAll]
    rw [hanswer, hanswers]

end Clients

/-- A client whose machine is sound is side by side with itself, whatever is released. -/
theorem Client.Sound.alike {c : Client} {S S' : Setting} (hc : c.Sound S)
    (hS : S.globals = S'.globals) : ∃ w : SideBySide S S', ClientsAlike w c c :=
  ⟨{ ρ := c.numbers
     left := c.machine
     right := c.machine
     globals := hS ▸ hc.globals
     steps := rfl
     depth := rfl
     nesting := rfl
     escapes := rfl
     heap := hc.heap },
    rfl, rfl, rfl, ⟨fun _ _ => .rfl, fun _ _ h => h.1, fun _ _ => .rfl, rfl, rfl, rfl⟩,
    fun _ hi => ⟨rfl, .held hi⟩⟩

/-- A client is sound when nothing that there is a way to has numbers that were made up. -/
theorem Client.sound_of {c : Client} {S : Setting} {ρ : Renaming}
    (hmark : ∀ a b, ρ.mark a b → c.numbers.mark a b)
    (hsource : ∀ a b, ρ.source a b → c.numbers.source a b)
    (hscope : ∀ a b, ρ.scope a b → a = b)
    (hshared : Value.capturedFields S.globals ⊆ c.held)
    (hglobals : FieldsAlike ρ S.globals S.globals)
    (hheap : ∀ i, c.machine.heap.Reaches c.held i →
      ∃ s, c.machine.heap.scopes[i]? = some s ∧ s.Alike ρ i i s) : c.Sound S := by
  -- relating what there is a way to by identity costs nothing, as `ρ` relates it to itself only
  have hfields {fs : Fields Value} (hfs : FieldsAlike ρ fs fs)
      (hj : ∀ j ∈ Value.capturedFields fs, c.machine.heap.Reaches c.held j) :
      FieldsAlike c.numbers fs fs :=
    Value.Alike.transferFields hmark hsource
      (fun i j hmem hij => ⟨hscope _ _ hij, hscope _ _ hij ▸ hj j hmem⟩) hfs
  refine ⟨hshared, hfields hglobals fun j hj => .held (hshared hj),
    Client.heap_alike fun i hi => ?_⟩
  obtain ⟨s, hs, hss⟩ := hheap i hi
  refine ⟨s, hs, hfields hss.vars fun j hj => .captured hi hs hj, ?_⟩
  have hparent := hss.parent
  cases hp : s.parent with
  | none => exact .none
  | some p =>
    rw [hp] at hparent
    cases hparent with
    | some hq => exact .some ⟨hq.1, hq.2.1, rfl, .parent hi hs hp⟩

/-- What a client has a way to is as sound as the machine that it shares with itself. -/
theorem ClientsAlike.sound {c : Client} {S : Setting} {w : SideBySide S S}
    (h : ClientsAlike w c c) (hshared : Value.capturedFields S.globals ⊆ c.held) : c.Sound S := by
  refine Client.sound_of (ρ := w.ρ) (fun a b hab => ?_) (fun a b hab => ?_) h.diagonal.scope
    hshared w.globals fun i hi => ?_
  · rw [h.diagonal.mark, h.left] at hab
    exact hab
  · rw [h.diagonal.source, h.left] at hab
    exact hab
  · obtain ⟨s, s', hs, hs', hss⟩ := w.heap.scope i i (h.reaches hi)
    rw [h.left] at hs
    rw [h.right, hs] at hs'
    cases hs'
    exact ⟨s, hs, hss⟩

theorem Client.held_subset_ask (c : Client) (S : Setting) (q : Request) :
    c.held ⊆ (c.ask S q).2.held := by
  unfold Client.ask
  split
  · exact List.subset_append_right _ _
  · exact List.Subset.refl _

/-- Soundness lasts: no request that names only what the client can have breaks it. -/
theorem Client.Sound.ask {c : Client} {S : Setting} (hc : c.Sound S) {q : Request}
    (hq : q.Allowed c) : (c.ask S q).2.Sound S := by
  obtain ⟨w, hw⟩ : ∃ w : SideBySide S S, ClientsAlike w c c := hc.alike rfl
  obtain ⟨_, v, hv⟩ := ClientsAlike.ask (w := w) rfl hw hq
  exact hv.sound (List.Subset.trans hc.shared (c.held_subset_ask S q))

theorem Heap.Reaches.of_clearIf {h : Heap} {b : Bool} {k : Nat} {held held' : List Nat}
    (hheld : held' ⊆ held) {i : Nat} (hi : (h.clearIf b k).Reaches held' i) :
    h.Reaches held i := by
  -- an emptied scope keeps its parent and captures nothing, so ways only go missing
  have hscope : ∀ (j : Nat) (s : Scope), (h.clearIf b k).scopes[j]? = some s →
      ∃ t, h.scopes[j]? = some t ∧ t.parent = s.parent ∧ (s = t ∨ s.vars = []) := by
    intro j s hs
    by_cases hj : j = k
    · cases b with
      | false => exact ⟨s, hs, rfl, .inl rfl⟩
      | true =>
        have hs : (h.modifyVars k fun _ => []).scopes[j]? = some s := hs
        rw [Heap.scopes_modifyVars, if_pos hj.symm] at hs
        obtain ⟨t, ht, rfl⟩ := Option.map_eq_some_iff.mp hs
        exact ⟨t, ht, rfl, .inr rfl⟩
    · rw [Heap.scopes_clearIf _ _ _ hj] at hs
      exact ⟨s, hs, rfl, .inl rfl⟩
  induction hi with
  | held hi => exact .held (hheld hi)
  | parent _ hs hp ih =>
    obtain ⟨t, ht, hparent, _⟩ := hscope _ _ hs
    exact .parent ih ht (hparent.trans hp)
  | captured _ hs hj ih =>
    obtain ⟨t, ht, _, hvars⟩ := hscope _ _ hs
    rcases hvars with rfl | hvars
    · exact .captured ih ht hj
    · rw [hvars] at hj
      cases hj

/-- A sound client may give up scopes and have one emptied. -/
theorem Client.Sound.clearIf {c : Client} {S S' : Setting} (hc : c.Sound S) {held' : List Nat}
    (hheld : held' ⊆ c.held) (hshared : Value.capturedFields S'.globals ⊆ held')
    (hglobals : FieldsAlike c.numbers S'.globals S'.globals) (b : Bool) (k : Nat) :
    Client.Sound { machine := { heap := c.machine.heap.clearIf b k }, held := held' } S' := by
  refine Client.sound_of (ρ := c.numbers) (fun m n h => ?_) (fun m n h => ?_) (fun _ _ h => h.1)
    hshared hglobals fun i hi => ?_
  · exact ⟨h.1, by rw [Heap.nextMark_clearIf]; exact h.2⟩
  · exact ⟨h.1, by rw [Heap.nextSource_clearIf]; exact h.2⟩
  · obtain ⟨s, s', hs, hs', hss⟩ := hc.heap.scope i i ⟨rfl, hi.of_clearIf hheld⟩
    rw [hs] at hs'
    cases hs'
    by_cases hik : i = k
    · cases b with
      | false => exact ⟨s, hs, hss⟩
      | true =>
        refine ⟨{ s with vars := [] }, ?_, .nil, hss.parent⟩
        show (c.machine.heap.modifyVars k fun _ => []).scopes[i]? = _
        rw [Heap.scopes_modifyVars, if_pos hik.symm, hs]
        rfl
    · exact ⟨s, (Heap.scopes_clearIf _ _ _ hik).trans hs, hss⟩

/-- A client of an interpreter in which nothing has run yet. -/
theorem Client.sound_new (S : Setting) (hS : S.globals = []) :
    Client.Sound { machine := { heap := {} } } S := by
  have hnone : ∀ i, ¬Heap.Reaches {} [] i := by
    intro i hi
    induction hi with
    | held hi => cases hi
    | parent _ _ _ ih => exact ih
    | captured _ _ _ ih => exact ih
  refine ⟨?_, ?_, heap_alike fun i hi => absurd hi (hnone i)⟩
  · rw [hS]
    exact List.nil_subset _
  · rw [hS]
    exact .nil

/-! ## 4. Releasing against keeping -/

/-- An interpreter that empties finished scopes and one that keeps them answer a client alike, after
the same steps, and hold the same in every scope that the client has a way to. -/
theorem askAll_releasing_eq_keeping (S : Setting) (c : Client) (hc : c.Sound S)
    (requests : List Request) (hr : c.AllAllowed { S with releases := true } requests) :
    let releasing := c.askAll { S with releases := true } requests
    let keeping := c.askAll { S with releases := false } requests
    releasing.1 = keeping.1 ∧ releasing.2.held = keeping.2.held ∧
      ∀ i, releasing.2.machine.heap.Reaches releasing.2.held i →
        ∃ s, releasing.2.machine.heap.scopes[i]? = some s ∧
          keeping.2.machine.heap.scopes[i]? = some s := by
  have hc : c.Sound { S with releases := true } := ⟨hc.shared, hc.globals, hc.heap⟩
  obtain ⟨w, hw⟩ : ∃ w : SideBySide { S with releases := true } { S with releases := false },
      ClientsAlike w c c := hc.alike rfl
  obtain ⟨hanswers, v, hv⟩ := ClientsAlike.askAll (w := w) rfl hw hr
  refine ⟨hanswers, hv.held, fun i hi => ?_⟩
  obtain ⟨s, s', hs, hs', hss⟩ := v.heap.scope i i (hv.reaches hi)
  rw [hv.left] at hs
  rw [hv.right, ← hss.eq hv.diagonal.ρ] at hs'
  exact ⟨s, hs, hs'⟩

/-- A block that keeps one of its variables in a closure outside, and empties another time. -/
def keepingProgram : List Stmt :=
  [.declare [("f", none)],
    .block [.declare [("x", some (.number 1))],
      .expr (.assign "f" none (.function (.mk none [] (.expr (.ident "x")))))],
    .block [.declare [("x", some (.number 2))]],
    .expr (.call (.ident "f") [] false)]

/-- The theorem for a new interpreter that runs a block with a closure in it. -/
theorem askAll_keepingProgram :
    let c : Client := { machine := { heap := {} } }
    let requests : List Request := [.openTop [], .run ⟨0, 0⟩ keepingProgram]
    c.Sound {} ∧ c.AllAllowed { ({} : Setting) with releases := true } requests ∧
      (c.askAll { ({} : Setting) with releases := true } requests).1 =
        (c.askAll { ({} : Setting) with releases := false } requests).1 := by
  have hc : Client.Sound { machine := { heap := {} } } {} := Client.sound_new {} rfl
  have hr : Client.AllAllowed { machine := { heap := {} } } { ({} : Setting) with releases := true }
      [.openTop [], .run ⟨0, 0⟩ keepingProgram] :=
    ⟨.nil, ⟨⟨rfl, .held (List.mem_singleton_self 0)⟩, rfl, Nat.one_pos⟩, trivial⟩
  exact ⟨hc, hr, (askAll_releasing_eq_keeping {} _ hc _ hr).1⟩

end TraceViewer.Snippet
