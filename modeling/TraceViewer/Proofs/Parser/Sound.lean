import TraceViewer.Filter
import TraceViewer.Proofs.Snippet.Release

/-!
# Registries stay sound

A registry is sound when no number in what its parsers have a way to was made up.  Everything that
is evaluated against a sound registry leaves a sound one with the same parsers, and so do
registering and removing parsers.
-/

namespace TraceViewer

open Snippet

/-! ## 1. Runs on two registries -/

/-- Outcomes of two runs: related values or the same error. -/
inductive OutcomesAlike {α β : Type} (P : α → β → Prop) : Except Error α → Except Error β → Prop
  | ok {a : α} {b : β} (h : P a b) : OutcomesAlike P (.ok a) (.ok b)
  | error (e : Error) : OutcomesAlike P (.error e) (.error e)

namespace Registry

/-- A client that was handed the functions of the parsers. -/
def client (r : Registry) : Client :=
  { machine := { heap := r.heap }, held := Value.capturedFields r.setting.globals }

/-- The parsers hold nothing that was made up. -/
def Sound (r : Registry) : Prop := r.client.Sound r.setting

/-- The machines of two registries side by side. -/
structure Beside (r r' : Registry) (w : SideBySide r.setting r'.setting) : Prop where
  left : w.left = { heap := r.heap }
  right : w.right = { heap := r'.heap }
  limits : r.limits = r'.limits

theorem Beside.within {r r' : Registry} {w : SideBySide r.setting r'.setting}
    (h : Beside r r' w) : r.setting.limits.Within r'.setting.limits := by
  have hlimits : r.setting.limits = r'.setting.limits := h.limits
  rw [hlimits]
  exact ⟨Nat.le_refl _, Nat.le_refl _⟩

theorem perform_ok {r : Registry} {α : Type} {run : Setting → Run α} {a : α} {m : Machine}
    (h : run r.setting { heap := r.heap } = .ok a m) :
    r.perform run = (.ok a, { r with heap := m.heap }) := by
  simp only [perform, h]

theorem perform_error {r : Registry} {α : Type} {run : Setting → Run α} {e : Error} {m : Machine}
    (h : run r.setting { heap := r.heap } = .error e m) :
    r.perform run = (.error e, { r with heap := m.heap }) := by
  simp only [perform, h]

/-- Runs that are alike on the machines have alike outcomes on the registries. -/
theorem perform_alike {r r' : Registry} {w : SideBySide r.setting r'.setting} (h : Beside r r' w)
    {α β : Type} {own : Option Nat} (run : Setting → Run α) (run' : Setting → Run β)
    {P : SideBySide r.setting r'.setting → α → β → Prop}
    (hrun : w.Runs own P (run r.setting) (run' r'.setting)) :
    ∃ v : SideBySide r.setting r'.setting, w.Leads own v ∧
      v.left.heap = (r.perform run).2.heap ∧ v.right.heap = (r'.perform run').2.heap ∧
      OutcomesAlike (P v) (r.perform run).1 (r'.perform run').1 := by
  unfold SideBySide.Runs SideBySide.RunsFrom at hrun
  rw [h.left, h.right] at hrun
  rcases hrun.cases with ⟨v, a, b, hx, hy, hv, hP⟩ | ⟨v, e, hx, hy, hv⟩ | ⟨e, m, hx, hcut⟩
  · rw [perform_ok hx, perform_ok hy]
    exact ⟨v, hv, rfl, rfl, .ok hP⟩
  · rw [perform_error hx, perform_error hy]
    exact ⟨v, hv, rfl, rfl, .error e⟩
  · exact absurd hcut (SideBySide.not_cut h.limits e)

/-! ## 2. What goes on from a registry -/

/-- A later state of a registry, with the same parsers. -/
structure Continues (r r' : Registry) : Prop where
  parsers : r'.parsers = r.parsers
  limits : r'.limits = r.limits
  mark : r.heap.nextMark ≤ r'.heap.nextMark
  source : r.heap.nextSource ≤ r'.heap.nextSource
  sound : r'.Sound

theorem Continues.refl {r : Registry} (hr : r.Sound) : Continues r r :=
  ⟨rfl, rfl, Nat.le_refl _, Nat.le_refl _, hr⟩

theorem Continues.trans {r r' r'' : Registry} (h : Continues r r') (g : Continues r' r'') :
    Continues r r'' :=
  ⟨g.parsers.trans h.parsers, g.limits.trans h.limits, Nat.le_trans h.mark g.mark,
    Nat.le_trans h.source g.source, g.sound⟩

/-- A sound registry beside itself. -/
theorem Sound.beside {r : Registry} (hr : r.Sound) :
    ∃ w : SideBySide r.setting r.setting, Beside r r w ∧ ClientsAlike w r.client r.client := by
  obtain ⟨w, hw⟩ : ∃ w : SideBySide r.setting r.setting, ClientsAlike w r.client r.client :=
    Client.Sound.alike hr rfl
  exact ⟨w, ⟨hw.left, hw.right, rfl⟩, hw⟩

/-- A registry with some more scopes that are held on to. -/
def holding (r : Registry) (extra : List Nat) : Client :=
  { machine := { heap := r.heap }, held := extra ++ Value.capturedFields r.setting.globals }

/-- Where runs of two machines that are the same lead, the machines are the same again. -/
theorem holding_alike {r r' : Registry} {w v : SideBySide r.setting r.setting}
    (hw : ClientsAlike w r.client r.client) {own : Option Nat} (hv : w.Leads own v)
    (hleft : v.left.heap = r'.heap) (hright : v.right.heap = r'.heap)
    (hsetting : r'.setting = r.setting) (extra : List Nat)
    (hextra : ∀ i ∈ extra, v.ρ.scope i i) :
    ∃ u : SideBySide r.setting r.setting, u.ρ = v.ρ ∧
      ClientsAlike u (r'.holding extra) (r'.holding extra) := by
  have hd := hv.diagonal hw.diagonal
  -- the counters start anew
  let u : SideBySide r.setting r.setting :=
    { v with
      left := { heap := v.left.heap }
      right := { heap := v.right.heap }
      steps := rfl
      depth := rfl
      nesting := rfl
      escapes := rfl }
  refine ⟨u, rfl, ?_, ?_, rfl,
    ⟨hd.mark, hd.scope, hd.source, hd.nextMark, hd.nextSource, hd.size⟩, fun i hi => ?_⟩
  · exact congrArg (fun h => ({ heap := h } : Machine)) hleft
  · exact congrArg (fun h => ({ heap := h } : Machine)) hright
  · have hi : i ∈ extra ++ Value.capturedFields r'.setting.globals := hi
    rw [hsetting] at hi
    rcases List.mem_append.mp hi with hi | hi
    · exact hextra i hi
    · exact hv.le.scope _ _ (hw.scopes i hi)

/-- A sound registry goes on to where the runs of two machines that are the same lead. -/
theorem continues_of {r r' : Registry} {w v : SideBySide r.setting r.setting}
    (hw : ClientsAlike w r.client r.client) {own : Option Nat} (hv : w.Leads own v)
    (hleft : v.left.heap = r'.heap) (hright : v.right.heap = r'.heap)
    (hparsers : r'.parsers = r.parsers) (hlimits : r'.limits = r.limits) : Continues r r' := by
  have hsetting : r'.setting = r.setting := by
    unfold setting
    rw [hparsers, hlimits]
  have hd := hv.diagonal hw.diagonal
  refine ⟨hparsers, hlimits, ?_, ?_, ?_⟩
  · -- a number below the old bound is related to itself still, so it is below the new bound
    by_contra hlt
    have hmark := (hw.diagonal.mark r'.heap.nextMark r'.heap.nextMark).mpr ⟨rfl, by
      rw [hw.left]
      exact Nat.not_le.mp hlt⟩
    have := ((hd.mark _ _).mp (hv.le.mark _ _ hmark)).2
    rw [hleft] at this
    exact Nat.lt_irrefl _ this
  · by_contra hlt
    have hsource := (hw.diagonal.source r'.heap.nextSource r'.heap.nextSource).mpr ⟨rfl, by
      rw [hw.left]
      exact Nat.not_le.mp hlt⟩
    have := ((hd.source _ _).mp (hv.le.source _ _ hsource)).2
    rw [hleft] at this
    exact Nat.lt_irrefl _ this
  · obtain ⟨u, _, hu⟩ := holding_alike hw hv hleft hright hsetting [] (by simp)
    unfold Sound
    rw [hsetting]
    exact hu.sound (by rw [← hsetting]; exact List.Subset.refl _)

/-- What a run that is alike to itself does to a sound registry. -/
theorem Sound.perform {r : Registry} (hr : r.Sound) {α : Type} (run : Setting → Run α)
    {P : SideBySide r.setting r.setting → α → α → Prop}
    (hrun : ∀ w : SideBySide r.setting r.setting, Beside r r w → ClientsAlike w r.client r.client →
      ∃ own, w.Runs own P (run r.setting) (run r.setting)) :
    ∃ (w v : SideBySide r.setting r.setting) (own : Option Nat),
      ClientsAlike w r.client r.client ∧ w.Leads own v ∧
      v.left.heap = (r.perform run).2.heap ∧ v.right.heap = (r.perform run).2.heap ∧
      OutcomesAlike (P v) (r.perform run).1 (r.perform run).1 := by
  obtain ⟨w, hb, hw⟩ := hr.beside
  obtain ⟨own, h⟩ := hrun w hb hw
  obtain ⟨v, hv, hleft, hright, houtcome⟩ := perform_alike hb _ _ h
  exact ⟨w, v, own, hw, hv, hleft, hright, houtcome⟩

/-- A run that is alike to itself goes on from a sound registry. -/
theorem Sound.continues {r : Registry} (hr : r.Sound) {α : Type} (run : Setting → Run α)
    {P : SideBySide r.setting r.setting → α → α → Prop}
    (hrun : ∀ w : SideBySide r.setting r.setting, Beside r r w → ClientsAlike w r.client r.client →
      ∃ own, w.Runs own P (run r.setting) (run r.setting)) :
    Continues r (r.perform run).2 := by
  obtain ⟨w, v, own, hw, hv, hleft, hright, _⟩ := hr.perform run hrun
  exact continues_of hw hv hleft hright (parsers_perform r run) (limits_perform r run)

/-! ## 3. Everything that is evaluated -/

section Runs

variable {S S' : Setting} {w : SideBySide S S'} (hS : S.limits.Within S'.limits)
include hS

theorem runs_cell {s s' : Nat} (hs : w.ρ.source s s') (cell : String) (e : Expr) :
    w.Runs none SideBySide.Values
      (do
        let env ← Run.openScope [("value", .text cell)] s
        runExpr S env e)
      (do
        let env ← Run.openScope [("value", .text cell)] s'
        runExpr S' env e) :=
  SideBySide.Runs.bind (.openScope (.cons "value" (.plain rfl) .nil) hs) fun _ _ _ _ h =>
    .runExpr hS h.1 e

theorem runs_row {s s' : Nat} (hs : w.ρ.source s s') (event : Event) (e : Expr) :
    w.Runs none SideBySide.Values
      (do
        let row ← RowFilter.eventValue event
        let env ← Run.openScope [("row", row)] s
        let v ← runExpr S env e
        if v.isCallable then runCall S v [row] else return v)
      (do
        let row ← RowFilter.eventValue event
        let env ← Run.openScope [("row", row)] s'
        let v ← runExpr S' env e
        if v.isCallable then runCall S' v [row] else return v) := by
  refine SideBySide.Runs.bind (.ofJson _) fun v row row' hv hrow => ?_
  refine SideBySide.Runs.bind (.openScope (.cons "row" hrow .nil) (hv.le.source _ _ hs))
    fun u env env' hu henv => ?_
  refine SideBySide.Runs.bind (.runExpr hS henv.1 e) fun t x x' ht hx => ?_
  rw [Value.isCallable_eq hx]
  split
  · exact .runCall hS hx (.cons (hrow.mono (hu.le.trans ht.le)) .nil)
  · exact .pure hx

theorem runs_programValue (binding : String) (program : List Stmt) :
    w.Runs none SideBySide.Options (programValue S binding program)
      (programValue S' binding program) := by
  refine SideBySide.Runs.inOpened (.openTop .nil) fun v env env' henv _ => ?_
  refine SideBySide.Runs.andThen (.runProgram hS henv program) fun u _ _ hu _ => ?_
  have henv := henv.mono hu.le
  refine SideBySide.Runs.bind (P := SideBySide.Options) (.askHeap ?_) fun t x x' ht hx => ?_
  · exact u.heap.lookup? henv.scope binding
  have henv := henv.mono ht.le
  refine SideBySide.Runs.bind (P := SideBySide.Options) (.askHeap ?_) fun s y y' hs hy => .pure ?_
  · cases firstFunctionName program with
    | none => exact .none
    | some name => exact t.heap.lookup? henv.scope name
  · cases hx with
    | some hx => exact .some (hx.mono hs.le)
    | none => exact hy

theorem runs_exprValue (e : Expr) :
    w.Runs none SideBySide.Values (exprValue S e) (exprValue S' e) :=
  SideBySide.Runs.bind (.openTop .nil) fun _ _ _ _ h => .runExpr hS h.1 e

end Runs

variable {r : Registry}

theorem find?_mem {name : String} {p : Parser} (h : r.find? name = some p) :
    (p.name, p.callable) ∈ r.setting.globals := by
  unfold setting
  exact List.mem_map.mpr ⟨p, List.mem_of_find?_eq_some h, rfl⟩

theorem Sound.source (hr : r.Sound) : Continues r r.source.2 :=
  hr.continues (fun _ => Run.onHeap Heap.source) fun _ _ _ => ⟨none, .source⟩

theorem Sound.cell (hr : r.Sound) (f : CellFilter) (hf : f.source < r.heap.nextSource)
    (cell : String) : Continues r (f.eval cell r).2 := by
  unfold CellFilter.eval
  cases f.parsed with
  | error e => exact .refl hr
  | ok expr =>
    have h := hr.continues (fun S => do
        let env ← Run.openScope [("value", .text cell)] f.source
        runExpr S env expr) fun _ hb hw =>
      ⟨none, runs_cell hb.within (hw.source hf) cell expr⟩
    dsimp only
    split <;>
    · next heq =>
      rw [heq] at h
      exact h

theorem Sound.row (hr : r.Sound) (f : RowFilter) (hf : f.source < r.heap.nextSource)
    (event : Event) : Continues r (f.eval event r).2 :=
  hr.continues _ fun _ hb hw => ⟨none, runs_row hb.within (hw.source hf) event f.expr⟩

theorem Sound.test (hr : r.Sound) (name input : String) : Continues r (r.test name input).2 := by
  unfold Registry.test
  split
  · exact .refl hr
  · next p hp =>
    have h := hr.continues (fun S => runCall S p.callable [.text input]) fun w hb hw =>
      ⟨none, SideBySide.Runs.runCall hb.within (w.globals.self_of_mem (find?_mem hp))
        (.cons (.plain rfl) .nil)⟩
    split <;>
    · next heq =>
      rw [heq] at h
      exact h

/-! ## 4. Registering and removing -/

/-- What reading and running a source text leaves: a later registry, and a function that it can
have. -/
structure Compiled (r r' : Registry) (x : Value) : Prop where
  continues : Continues r r'
  sound : (r'.holding x.captured).Sound r'.setting
  has : (r'.holding x.captured).Has x

/-- A run that gives alike values gives one that the registry can have. -/
theorem compiled_of {r r' : Registry} {w v : SideBySide r.setting r.setting}
    (hw : ClientsAlike w r.client r.client) {own : Option Nat} (hv : w.Leads own v)
    (hleft : v.left.heap = r'.heap) (hright : v.right.heap = r'.heap)
    (hparsers : r'.parsers = r.parsers) (hlimits : r'.limits = r.limits) {x : Value}
    (hx : Value.Alike v.ρ x x) : Compiled r r' x := by
  have hsetting : r'.setting = r.setting := by
    unfold setting
    rw [hparsers, hlimits]
  have hd := hv.diagonal hw.diagonal
  have hextra : ∀ i ∈ x.captured, v.ρ.scope i i := fun i hi => by
    obtain ⟨j, _, hji⟩ := exists_of_mem_right (Value.captured_alike hx) hi
    rwa [hd.scope _ _ hji] at hji
  obtain ⟨u, hρ, hu⟩ := holding_alike hw hv hleft hright hsetting _ hextra
  refine ⟨continues_of hw hv hleft hright hparsers hlimits, ?_, ?_⟩
  · rw [hsetting]
    exact hu.sound (by rw [← hsetting]; exact List.subset_append_right _ _)
  · refine Value.Alike.transfer (ρ := u.ρ) (fun a b h => ?_) (fun a b h => ?_) (fun i j hj h => ?_)
      (hρ ▸ hx)
    · rw [hu.diagonal.mark, hu.left] at h
      exact h
    · rw [hu.diagonal.source, hu.left] at h
      exact h
    · exact ⟨hu.diagonal.scope _ _ h,
        hu.diagonal.scope _ _ h ▸ .held (List.mem_append_left _ hj)⟩

/-- What compiling a source text leaves. -/
inductive Compiles (r : Registry) : Except CompileFault Value × Registry → Prop
  | ok {x : Value} {r' : Registry} (h : Compiled r r' x) : Compiles r (.ok x, r')
  | error {r' : Registry} (h : Continues r r') (fault : CompileFault) :
      Compiles r (.error fault, r')

theorem Sound.codeValue (hr : r.Sound) (name code : String) :
    Compiles r (r.codeValue name code) := by
  unfold Registry.codeValue
  split
  · next binding _ =>
    split
    · exact .error (.refl hr) _
    · next program _ =>
      obtain ⟨w, v, own, hw, hv, hleft, hright, houtcome⟩ :=
        hr.perform (fun S => programValue S binding program) fun _ hb _ =>
          ⟨none, runs_programValue hb.within binding program⟩
      have hparsers := parsers_perform r fun S => programValue S binding program
      have hlimits := limits_perform r fun S => programValue S binding program
      generalize r.perform (fun S => programValue S binding program) = outcome at *
      obtain ⟨result, r'⟩ := outcome
      cases houtcome with
      | error e => exact .error (continues_of hw hv hleft hright hparsers hlimits) _
      | ok h =>
        cases h with
        | none => exact .error (continues_of hw hv hleft hright hparsers hlimits) _
        | some h => exact .ok (compiled_of hw hv hleft hright hparsers hlimits h)
  · split
    · exact .error (.refl hr) _
    · next e _ =>
      obtain ⟨w, v, own, hw, hv, hleft, hright, houtcome⟩ :=
        hr.perform (fun S => exprValue S e) fun _ hb _ =>
          ⟨none, runs_exprValue hb.within e⟩
      have hparsers := parsers_perform r fun S => exprValue S e
      have hlimits := limits_perform r fun S => exprValue S e
      generalize r.perform (fun S => exprValue S e) = outcome at *
      obtain ⟨result, r'⟩ := outcome
      cases houtcome with
      | error e => exact .error (continues_of hw hv hleft hright hparsers hlimits) _
      | ok h => exact .ok (compiled_of hw hv hleft hright hparsers hlimits h)

theorem Sound.compile (hr : r.Sound) (name source : String) :
    Compiles r (r.compile name source) := by
  have h := hr.codeValue name (Text.trim source)
  unfold Registry.compile
  generalize r.codeValue name (Text.trim source) = outcome at *
  cases h with
  | error h fault => exact .error h fault
  | ok h =>
    dsimp only
    split
    · exact .ok h
    · exact .error h.continues _

theorem retire_eq_clearIf (h : Heap) (x : Value) : ∃ b k, retire h x = h.clearIf b k := by
  cases x with
  | closure m c => exact ⟨true, c.scope, rfl⟩
  | _ => exact ⟨false, 0, rfl⟩

theorem mem_insert {p q : Parser} {ps : List Parser} (h : p ∈ insert q ps) : p = q ∨ p ∈ ps := by
  induction ps with
  | nil => exact .inl (List.mem_singleton.mp h)
  | cons first rest ih =>
    unfold insert at h
    split at h
    · exact (List.mem_cons.mp h).imp_right (List.mem_cons_of_mem _)
    · rcases List.mem_cons.mp h with rfl | h
      · exact .inr (List.mem_cons_self ..)
      · exact (ih h).imp_right (List.mem_cons_of_mem _)

/-- A sound registry that has other parsers than before. -/
structure Reparsed (r r' : Registry) : Prop where
  source : r.heap.nextSource ≤ r'.heap.nextSource
  sound : r'.Sound

/-- Other parsers, whose functions the registry can have, and a scope that is emptied at most. -/
theorem Sound.change {r r' : Registry} (extra : List Nat)
    (h : (r.holding extra).Sound r.setting)
    (hparsers : ∀ p ∈ r'.parsers, p ∈ r.parsers ∨
      (r.holding extra).Has p.callable ∧ p.callable.captured ⊆ extra)
    {b : Bool} {k : Nat} (hheap : r'.heap = r.heap.clearIf b k) : Reparsed r r' := by
  -- the shared names are the parsers: each is an old one, or a new one that was made up of `extra`
  have hglobal : ∀ f ∈ r'.setting.globals, f ∈ r.setting.globals ∨
      (r.holding extra).Has f.2 ∧ f.2.captured ⊆ extra := by
    intro f hf
    obtain ⟨p, hp, rfl⟩ := List.mem_map.mp hf
    exact (hparsers p hp).imp_left fun hp => List.mem_map.mpr ⟨p, hp, rfl⟩
  have hheld : Value.capturedFields r'.setting.globals ⊆ (r.holding extra).held := by
    intro i hi
    obtain ⟨f, hf, hi⟩ := Value.mem_capturedFields.mp hi
    rcases hglobal f hf with hf | ⟨_, hsub⟩
    · exact List.mem_append_right _ (Value.mem_capturedFields.mpr ⟨f, hf, hi⟩)
    · exact List.mem_append_left _ (hsub hi)
  have hfields : FieldsAlike (r.holding extra).numbers r'.setting.globals r'.setting.globals := by
    refine Fields.Rel.refl_of_forall fun f hf => ?_
    rcases hglobal f hf with hf | ⟨hhas, _⟩
    · exact h.globals.self_of_mem hf
    · exact hhas
  have hsound := Client.Sound.clearIf h hheld (List.Subset.refl _) hfields b k
  refine ⟨?_, ?_⟩
  · exact Nat.le_of_eq (by rw [hheap, Heap.nextSource_clearIf])
  · unfold Sound client
    rw [hheap]
    exact hsound

/-- Registering a text that cannot be compiled leaves what compiling it leaves. -/
theorem register_error {name source : String} {fault : CompileFault} {r' : Registry}
    (h : r.register name source = (.error fault, r')) :
    r' = r ∨ r' = (r.compile (Text.trim name) source).2 := by
  unfold register at h
  dsimp only at h
  split at h
  · exact .inl (Prod.ext_iff.mp h).2.symm
  · split at h
    · next hc =>
      rw [hc]
      exact .inr (Prod.ext_iff.mp h).2.symm
    · cases (Prod.ext_iff.mp h).1

theorem Sound.register (hr : r.Sound) (name source : String) :
    Reparsed r (r.register name source).2 := by
  unfold Registry.register
  dsimp only
  split
  · exact ⟨Nat.le_refl _, hr⟩
  · have hcompile := hr.compile (Text.trim name) source
    generalize r.compile (Text.trim name) source = outcome at hcompile
    cases hcompile with
    | error h fault => exact ⟨h.source, h.sound⟩
    | ok h =>
      rename_i x r'
      -- the new function captures only what compiling left to hold on to
      have hparsers : ∀ p ∈ insert ⟨Text.trim name, source, x⟩ r'.parsers, p ∈ r'.parsers ∨
          (r'.holding x.captured).Has p.callable ∧ p.callable.captured ⊆ x.captured := by
        intro p hp
        rcases mem_insert hp with rfl | hp
        · exact .inr ⟨h.has, List.Subset.refl _⟩
        · exact .inl hp
      have hchange {heap : Heap} {b : Bool} {k : Nat} (hheap : heap = r'.heap.clearIf b k) :
          Reparsed r ⟨insert ⟨Text.trim name, source, x⟩ r'.parsers, r'.limits, heap⟩ := by
        have h' : Reparsed r' ⟨insert ⟨Text.trim name, source, x⟩ r'.parsers, r'.limits, heap⟩ :=
          Sound.change x.captured h.sound hparsers hheap
        exact ⟨Nat.le_trans h.continues.source h'.source, h'.sound⟩
      dsimp only
      split
      · next p _ =>
        obtain ⟨_, _, hheap⟩ := retire_eq_clearIf r'.heap p.callable
        exact hchange hheap
      · exact hchange (b := false) (k := 0) rfl

theorem Sound.remove (hr : r.Sound) (name : String) : Reparsed r (r.remove name).2 := by
  unfold Registry.remove
  split
  · exact ⟨Nat.le_refl _, hr⟩
  · next p _ =>
    obtain ⟨b, k, hheap⟩ := retire_eq_clearIf r.heap p.callable
    exact Sound.change [] hr (fun q hq => .inl (List.mem_of_mem_eraseP hq)) hheap

/-- A registry without parsers in which nothing has run yet. -/
theorem sound_new (limits : Limits) : Sound { limits } := Client.sound_new _ rfl

/-! ## 5. Parsers that stay -/

section Parsers

variable (r : Registry)

@[simp] theorem parsers_source : r.source.2.parsers = r.parsers := rfl

@[simp] theorem parsers_cell (f : CellFilter) (cell : String) :
    (f.keep cell r).2.parsers = r.parsers := by
  show (f.eval cell r).2.parsers = r.parsers
  unfold CellFilter.eval
  split
  · rfl
  · split <;>
    · next heq => rw [← parsers_perform r, heq]

@[simp] theorem parsers_row (f : RowFilter) (event : Event) :
    (f.keep event r).2.parsers = r.parsers := by
  unfold RowFilter.keep RowFilter.eval
  split <;>
  · next heq => rw [← parsers_perform r, heq]

@[simp] theorem parsers_test (name input : String) : (r.test name input).2.parsers = r.parsers := by
  unfold Registry.test
  split
  · rfl
  · split <;>
    · next heq => rw [← parsers_perform r, heq]

@[simp] theorem parsers_codeValue (name code : String) :
    (r.codeValue name code).2.parsers = r.parsers := by
  unfold Registry.codeValue
  split <;>
  · split
    · rfl
    · split <;>
      · next heq => rw [← parsers_perform r, heq]

@[simp] theorem parsers_compile (name source : String) :
    (r.compile name source).2.parsers = r.parsers := by
  unfold Registry.compile
  split
  · next heq => rw [← parsers_codeValue r, heq]
  · next heq =>
    split <;> rw [← parsers_codeValue r, heq]

theorem length_insert_le (p : Parser) (ps : List Parser) : ps.length ≤ (insert p ps).length := by
  induction ps with
  | nil => simp
  | cons first rest ih =>
    unfold insert
    split <;> simp [ih]

/-- Registering removes no parser. -/
theorem length_parsers_register (name source : String) :
    r.parsers.length ≤ (r.register name source).2.parsers.length := by
  have hcompile := r.parsers_compile (Text.trim name) source
  unfold Registry.register
  dsimp only
  split
  · exact Nat.le_refl _
  · split
    · next heq =>
      rw [heq] at hcompile
      exact Nat.le_of_eq (congrArg List.length hcompile.symm)
    · next heq =>
      rw [heq] at hcompile
      rw [← hcompile]
      exact length_insert_le ..

end Parsers

end Registry

end TraceViewer
