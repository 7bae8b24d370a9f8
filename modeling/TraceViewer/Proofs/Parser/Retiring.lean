import TraceViewer.Proofs.Parser.Stateless

/-!
# What retiring a parser takes from others

When a parser is registered anew or removed, the scope that its function was made in is emptied.
Nothing asks whether the function of another parser was made in that scope, or inside of it, as it
is when a parser was registered as another name for this one.  `Registry.Made.edit_keeps` says what
the other parsers and the new one keep, and `not_keeps_alias` is a parser that loses its variables.
-/

namespace TraceViewer

open Snippet

/-! ## 1. Scopes and what they bind -/

namespace Snippet

namespace Heap

/-- A scope and the scopes around it. -/
def chain (h : Heap) (scope : Nat) : List Nat :=
  match h.scopes[scope]? with
  | none => []
  | some s =>
    match s.parent with
    | none => [scope]
    | some parent => if parent < scope then scope :: h.chain parent else [scope]
termination_by scope

/-- The names that a scope binds. -/
def bound (h : Heap) (scope : Nat) : List String :=
  (h.scopes[scope]?.map fun s => Fields.names s.vars).getD []

theorem bound_clear (h : Heap) (k i : Nat) :
    (h.clear k).bound i = if k = i then [] else h.bound i := by
  unfold bound clear
  rw [scopes_modifyVars]
  by_cases hki : k = i
  · rw [if_pos hki, if_pos hki]
    cases h.scopes[i]? <;> rfl
  · rw [if_neg hki, if_neg hki]

theorem valid_of_mem_chain {h : Heap} {i j : Nat} (hi : i ∈ h.chain j) :
    ∃ s, h.scopes[i]? = some s := by
  induction j using Nat.strongRecOn with
  | ind j ih =>
    rw [chain] at hi
    split at hi
    · cases hi
    · next s hs =>
      split at hi
      · cases List.mem_singleton.mp hi
        exact ⟨s, hs⟩
      · next parent _ =>
        split at hi
        · next hlt =>
          rcases List.mem_cons.mp hi with rfl | hi
          · exact ⟨s, hs⟩
          · exact ih parent hlt hi
        · cases List.mem_singleton.mp hi
          exact ⟨s, hs⟩

/-- A later heap, in which the scopes that were there bind the names that they did. -/
def SameNames (h h' : Heap) : Prop :=
  ∀ (i : Nat) (s : Scope), h.scopes[i]? = some s →
    ∃ t, h'.scopes[i]? = some t ∧ Fields.names t.vars = Fields.names s.vars

theorem SameNames.refl (h : Heap) : h.SameNames h := fun _ s hs => ⟨s, hs, rfl⟩

theorem SameNames.bound {h h' : Heap} (hh : h.SameNames h') {i j : Nat} (hi : i ∈ h.chain j) :
    h'.bound i = h.bound i := by
  obtain ⟨s, hs⟩ := valid_of_mem_chain hi
  obtain ⟨t, ht, hnames⟩ := hh i s hs
  unfold Heap.bound
  rw [hs, ht]
  exact hnames

/-- Every variable on the scope chain that a function captured is bound in a later heap too. -/
def Keeps (h h' : Heap) (f : Value) : Prop :=
  ∀ j ∈ f.captured, ∀ i ∈ h.chain j, h.bound i ⊆ h'.bound i

/-- A function loses variables just when the scope that is emptied is on its chain and has some. -/
theorem keeps_clear_iff {h h' : Heap} (hh : h.SameNames h') (k : Nat) (f : Value) :
    h.Keeps (h'.clear k) f ↔ ∀ j ∈ f.captured, k ∈ h.chain j → h.bound k = [] := by
  constructor
  · intro hkeeps j hj hk
    -- the emptied scope itself is on the chain, and binds nothing afterwards
    have hsub := hkeeps j hj k hk
    rw [bound_clear, if_pos rfl] at hsub
    exact List.subset_nil.mp hsub
  · intro hempty j hj i hi
    rw [bound_clear]
    by_cases hki : k = i
    · subst hki
      rw [hempty j hj hi]
      exact List.nil_subset _
    · rw [if_neg hki, hh.bound hi]
      exact List.Subset.refl _

theorem SameNames.keeps {h h' : Heap} (hh : h.SameNames h') (f : Value) : h.Keeps h' f := by
  intro j _ i hi
  rw [hh.bound hi]
  exact List.Subset.refl _

end Heap

/-- The scope that a function was made in. -/
def Value.home? : Value → Option Nat
  | .closure _ c => some c.scope
  | _ => none

end Snippet

namespace Registry

theorem retire_eq (h : Heap) (f : Value) : retire h f = f.home?.elim h h.clear := by
  cases f <;> rfl

variable {r : Registry}

/-! ## 2. Registering and removing, in parts -/

/-- A change of one parser. -/
inductive Edit where
  | register (name source : String)
  | remove (name : String)

namespace Edit

def apply (r : Registry) : Edit → Registry
  | .register name source => (r.register name source).2
  | .remove name => (r.remove name).2

/-- The name whose parser is changed. -/
def name : Edit → String
  | .register name _ => Text.trim name
  | .remove name => name

/-- The registry after the source text was evaluated, where there is one. -/
def evaluated (r : Registry) : Edit → Registry
  | .register name source =>
    if (Text.trim name).isEmpty then r else (r.compile (Text.trim name) source).2
  | .remove _ => r

/-- The function that the name is bound to, if any. -/
def binds? (r : Registry) : Edit → Option Value
  | .register name source =>
    if (Text.trim name).isEmpty then none else (r.compile (Text.trim name) source).1.toOption
  | .remove _ => none

/-- Whether the change is made: a source text that gives no function changes nothing. -/
def takesPlace (r : Registry) : Edit → Bool
  | .remove _ => true
  | e => (e.binds? r).isSome

/-- The scope that is emptied: the one in which the function was made that the name was bound to. -/
def emptied? (r : Registry) (e : Edit) : Option Nat :=
  if e.takesPlace r then (r.find? e.name).bind fun p => p.callable.home? else none

end Edit

/-- A registry without the parser of a name. -/
def without (r : Registry) (name : String) : Registry :=
  { r with parsers := r.parsers.filter fun p => p.name != name }

theorem find?_without {name m : String} (hm : m ≠ name) : (r.without name).find? m = r.find? m := by
  unfold without find?
  dsimp only
  rw [List.find?_filter]
  congr 1
  funext p
  by_cases hp : p.name = m
  · simp [hp, hm]
  · simp [hp]

theorem filter_insert (parser : Parser) (ps : List Parser) :
    (insert parser ps).filter (fun p => p.name != parser.name) =
      ps.filter fun p => p.name != parser.name := by
  induction ps with
  | nil => simp [insert]
  | cons p rest ih =>
    unfold insert
    by_cases hp : p.name = parser.name
    · simp [hp]
    · simp [hp, ih]

theorem filter_eraseP (name : String) (ps : List Parser) :
    (ps.eraseP fun p => p.name == name).filter (fun p => p.name != name) =
      ps.filter fun p => p.name != name := by
  induction ps with
  | nil => rfl
  | cons p rest ih =>
    by_cases hp : p.name = name
    · simp [hp]
    · simp [hp, ih]

theorem find?_insert (parser : Parser) (ps : List Parser) :
    (insert parser ps).find? (fun p => p.name == parser.name) = some parser := by
  induction ps with
  | nil => simp [insert]
  | cons p rest ih =>
    unfold insert
    by_cases hp : p.name = parser.name
    · simp [hp]
    · simp [hp, ih]

/-- Evaluating the source text goes on from the registry with the same parsers. -/
theorem Sound.evaluated (hr : r.Sound) (e : Edit) : Continues r (e.evaluated r) := by
  cases e with
  | remove name => exact .refl hr
  | register name source =>
    unfold Edit.evaluated
    dsimp only
    split
    · exact .refl hr
    · exact (Serves.compile r (Text.trim name) source).continues hr

/-- What a change makes of a registry: one parser is in another's place or gone, and a scope is
emptied. -/
structure Edited (r : Registry) (e : Edit) (r' : Registry) : Prop where
  parsers : (r'.without e.name).parsers = (r.without e.name).parsers
  limits : r'.limits = r.limits
  heap : r'.heap = (e.emptied? r).elim (e.evaluated r).heap (e.evaluated r).heap.clear
  binds : ∀ f ∈ e.binds? r, ∃ p, r'.find? e.name = some p ∧ p.callable = f

theorem edited_remove (name : String) : Edited r (.remove name) (r.remove name).2 := by
  have hemptied : (Edit.remove name).emptied? r =
      (r.find? name).bind fun p => p.callable.home? := rfl
  unfold Registry.remove
  cases hfind : r.find? name with
  | none =>
    rw [hfind] at hemptied
    refine ⟨rfl, rfl, ?_, fun f hf => (nomatch hf)⟩
    rw [hemptied]
    rfl
  | some p =>
    rw [hfind] at hemptied
    refine ⟨filter_eraseP name r.parsers, rfl, ?_, fun f hf => (nomatch hf)⟩
    rw [hemptied]
    exact retire_eq r.heap p.callable

theorem Sound.edited_register (hr : r.Sound) (name source : String) :
    Edited r (.register name source) (r.register name source).2 := by
  have hcontinues := hr.evaluated (.register name source)
  have hemptied : (Edit.register name source).emptied? r =
      if ((Edit.register name source).binds? r).isSome then
        (r.find? (Text.trim name)).bind fun p => p.callable.home?
      else none := rfl
  have hbinds : (Edit.register name source).binds? r =
      if (Text.trim name).isEmpty then none
      else (r.compile (Text.trim name) source).1.toOption := rfl
  have hevaluated : (Edit.register name source).evaluated r =
      if (Text.trim name).isEmpty then r else (r.compile (Text.trim name) source).2 := rfl
  unfold Registry.register
  dsimp only
  by_cases hname : (Text.trim name).isEmpty
  · rw [if_pos hname] at hbinds hevaluated ⊢
    rw [hbinds] at hemptied
    -- a blank name is refused before anything is evaluated
    refine ⟨rfl, rfl, ?_, fun f hf => ?_⟩
    · rw [hemptied, hevaluated]
      rfl
    · rw [hbinds] at hf
      cases hf
  · rw [if_neg hname] at hbinds hevaluated ⊢
    rw [hevaluated] at hcontinues
    generalize r.compile (Text.trim name) source = outcome at hbinds hevaluated hcontinues ⊢
    obtain ⟨_ | f, r'⟩ := outcome
    · -- the text gave no function: what evaluating it left is all that is left
      rw [hbinds] at hemptied
      have hparsers : r'.parsers = r.parsers := hcontinues.parsers
      refine ⟨?_, hcontinues.limits, ?_, fun f hf => ?_⟩
      · show r'.parsers.filter (fun p => p.name != Text.trim name) =
          r.parsers.filter fun p => p.name != Text.trim name
        rw [hparsers]
      · rw [hemptied, hevaluated]
        rfl
      · rw [hbinds] at hf
        cases hf
    · -- a function takes the place of the one before, which is retired in the heap that evaluating
      -- left
      have hparsers : r'.parsers = r.parsers := hcontinues.parsers
      have hfind : r'.find? (Text.trim name) = r.find? (Text.trim name) := by
        unfold Registry.find?
        rw [hparsers]
      have hinsert := find?_insert ⟨Text.trim name, source, f⟩ r'.parsers
      rw [hbinds] at hemptied
      refine ⟨?_, hcontinues.limits, ?_, fun g hg => ?_⟩
      · show (insert ⟨Text.trim name, source, f⟩ r'.parsers).filter
            (fun p => p.name != Text.trim name) =
          r.parsers.filter fun p => p.name != Text.trim name
        rw [← hparsers]
        exact filter_insert ⟨Text.trim name, source, f⟩ r'.parsers
      · rw [hemptied, hevaluated]
        dsimp only
        rw [hfind]
        cases r.find? (Text.trim name) with
        | none => rfl
        | some p => exact retire_eq r'.heap p.callable
      · rw [hbinds] at hg
        cases hg
        exact ⟨_, hinsert, rfl⟩

theorem Sound.edited (hr : r.Sound) (e : Edit) : Edited r e (e.apply r) := by
  cases e with
  | register name source => exact hr.edited_register name source
  | remove name => exact edited_remove name

theorem Edited.find? {e : Edit} {r' : Registry} (h : Edited r e r') {m : String}
    (hm : m ≠ e.name) : r'.find? m = r.find? m := by
  have hwithout : (r'.without e.name).find? m = (r.without e.name).find? m := by
    unfold Registry.find?
    rw [h.parsers]
  rw [← find?_without hm, hwithout, find?_without hm]

/-! ## 3. Variables -/

/-- A run that declares no variables in scopes that are there leaves their names. -/
theorem Sound.sameNames (hr : r.Sound) {α : Type} (run : Setting → Run α)
    {P : SideBySide r.setting r.setting → α → α → Prop}
    (hrun : ∀ w : SideBySide r.setting r.setting, Beside r r w →
      w.Runs none P (run r.setting) (run r.setting)) :
    r.heap.SameNames (r.perform run).2.heap := by
  obtain ⟨w, hb, _⟩ := hr.beside
  obtain ⟨v, hv, _, hright, _⟩ := perform_alike hb run run (hrun w hb)
  intro i s hs
  obtain ⟨t, ht, hst⟩ := hv.follows.scope i s (by rw [hb.right]; exact hs)
  rw [hright] at ht
  -- the run has no scope of its own, so every scope that was there is closed to it
  exact ⟨t, ht, hst.closed fun h => nomatch h⟩

theorem Sound.sameNames_codeValue (hr : r.Sound) (name code : String) :
    r.heap.SameNames (r.codeValue name code).2.heap := by
  unfold Registry.codeValue
  split
  · next binding _ =>
    split
    · exact .refl _
    · next program _ =>
      have h := hr.sameNames (fun S => programValue S binding program) fun _ hb =>
        runs_programValue hb.within binding program
      split <;>
      · next heq =>
        rw [heq] at h
        exact h
  · split
    · exact .refl _
    · next e _ =>
      have h := hr.sameNames (fun S => exprValue S e) fun _ hb => runs_exprValue hb.within e
      split <;>
      · next heq =>
        rw [heq] at h
        exact h

theorem Sound.sameNames_evaluated (hr : r.Sound) (e : Edit) :
    r.heap.SameNames (e.evaluated r).heap := by
  cases e with
  | remove name => exact .refl _
  | register name source =>
    unfold Edit.evaluated
    dsimp only
    split
    · exact .refl _
    · have h := hr.sameNames_codeValue (Text.trim name) (Text.trim source)
      unfold Registry.compile
      split
      · next heq =>
        rw [heq] at h
        exact h
      · next heq =>
        rw [heq] at h
        split <;> exact h

/-- The variables of the scope that a change empties are those that it takes. -/
theorem Edited.keeps_iff {e : Edit} {r' : Registry} (h : Edited r e r') {heap : Heap}
    (hheap : heap.SameNames (e.evaluated r).heap) (f : Value) :
    heap.Keeps r'.heap f ↔
      ∀ k ∈ e.emptied? r, ∀ j ∈ f.captured, k ∈ heap.chain j → heap.bound k = [] := by
  rw [h.heap]
  cases e.emptied? r with
  | none => exact ⟨fun _ _ hk => (nomatch hk), fun _ => hheap.keeps f⟩
  | some k =>
    simp only [Option.elim_some, Option.mem_some_iff, forall_eq']
    exact Heap.keeps_clear_iff hheap k f

/-! ## 4. Calls -/

/-- What can be seen of a value: its kind, its text, and its form in JSON. -/
def seen (v : Value) : String × String × Json := (v.kind, v.display, v.toJson)

def documents : List Json → Run (List Value)
  | [] => return []
  | j :: rest => do
    let v ← Run.onHeap fun h => h.ofJson j
    return v :: (← documents rest)

/-- What comes of calling a parser with some documents. -/
def call (r : Registry) (name : String) (args : List Json) :
    Except Error (String × String × Json) :=
  match r.find? name with
  | none => .error (.unbound name)
  | some p =>
    (r.perform fun setting => do runCall setting p.callable (← documents args)).1.map seen

theorem runs_documents {S S' : Setting} (args : List Json) : ∀ w : SideBySide S S',
    w.Runs none (fun v => ItemsAlike v.ρ) (documents args) (documents args) := by
  induction args with
  | nil => exact fun _ => .pure .nil
  | cons j rest ih =>
    intro w
    refine SideBySide.Runs.bind (.ofJson j) fun v x x' _ hx => ?_
    exact SideBySide.Runs.bind (ih v) fun u _ _ hu hvs => .pure (.cons (hx.mono hu.le) hvs)

/-- A parser does the same in two registries in which the parsers find their variables as they
were. -/
theorem Unchanged.call_eq {reg r' : Registry} (hreg : reg.Sound) (h : Unchanged reg r)
    (h' : Unchanged reg r') (name : String) (args : List Json) :
    r.call name args = r'.call name args := by
  have hfind : r'.find? name = r.find? name := by
    unfold Registry.find?
    rw [h.parsers, h'.parsers]
  have hsetting : r'.setting = r.setting := h'.setting_eq.trans h.setting_eq.symm
  -- the two registries side by side: what the parsers need stands for itself
  obtain ⟨w, hw, _⟩ := Unchanged.beside hreg h h'
  unfold call
  rw [hfind]
  cases hp : r.find? name with
  | none => rfl
  | some p =>
    have hglobals := w.globals
    rw [congrArg Setting.globals hsetting] at hglobals
    have hcallable : Value.Alike w.ρ p.callable p.callable := hglobals.self_of_mem (find?_mem hp)
    obtain ⟨v, _, _, _, houtcome⟩ := perform_alike hw
      (fun S => do runCall S p.callable (← documents args))
      (fun S => do runCall S p.callable (← documents args))
      (SideBySide.Runs.bind (runs_documents args w) fun _ _ _ hv hvs =>
        .runCall hw.within (hcallable.mono hv.le) hvs)
    dsimp only
    generalize r.perform _ = left at houtcome ⊢
    generalize r'.perform _ = right at houtcome ⊢
    obtain ⟨x, s⟩ := left
    obtain ⟨x', s'⟩ := right
    cases houtcome with
    | ok hv =>
      show Except.ok (seen _) = Except.ok (seen _)
      unfold seen
      rw [Value.kind_eq hv, Value.display_eq hv, Value.toJson_eq hv]
    | error e => rfl

theorem Sound.without (hr : r.Sound) (name : String) : (r.without name).Sound := by
  have hparsers : ∀ p ∈ (r.without name).parsers, p ∈ r.parsers ∨
      (r.holding []).Has p.callable ∧ p.callable.captured ⊆ [] :=
    fun p hp => .inl (List.mem_of_mem_filter hp)
  have hchange : Reparsed r (r.without name) :=
    Sound.change (b := false) (k := 0) [] hr hparsers rfl
  exact hchange.sound

/-- The change spares what the other parsers have a way to: evaluating the source text changes no
variable of theirs, and they have none in the scope that is emptied. -/
structure Edit.Spares (r : Registry) (e : Edit) : Prop where
  evaluated : ∀ i, (r.without e.name).Needs i →
    (e.evaluated r).heap.scopes[i]? = r.heap.scopes[i]?
  emptied : ∀ k ∈ e.emptied? r, (r.without e.name).Needs k → r.heap.bound k = []

theorem Edit.Spares.scopes {e : Edit} (hs : e.Spares r) {r' : Registry} (h : Edited r e r')
    (i : Nat)
    (hi : (r.without e.name).Needs i) : r'.heap.scopes[i]? = r.heap.scopes[i]? := by
  have hevaluated := hs.evaluated i hi
  have hemptied := hs.emptied
  rw [h.heap]
  generalize e.emptied? r = emptied at hemptied
  cases emptied with
  | none => exact hevaluated
  | some k =>
    show ((e.evaluated r).heap.modifyVars k fun _ => []).scopes[i]? = _
    rw [Heap.scopes_modifyVars, hevaluated]
    -- emptying a scope that has no variables leaves it as it is
    by_cases hki : k = i
    · subst hki
      have hbound := hemptied k rfl hi
      rw [if_pos rfl]
      unfold Heap.bound at hbound
      cases hscope : r.heap.scopes[k]? with
      | none => rfl
      | some s =>
        rw [hscope] at hbound
        have hvars : s.vars = [] := List.map_eq_nil_iff.mp hbound
        rw [← hvars]
        rfl
    · rw [if_neg hki]

theorem Sound.apply (hr : r.Sound) (e : Edit) : (e.apply r).Sound := by
  cases e with
  | register name source => exact (hr.register name source).sound
  | remove name => exact (hr.remove name).sound

/-- Where a change spares the other parsers, they do the same after it. -/
theorem Edit.Spares.call_eq (hr : r.Sound) {e : Edit} (hs : e.Spares r) (m : String)
    (args : List Json) :
    ((e.apply r).without e.name).call m args = (r.without e.name).call m args := by
  have hedited := hr.edited e
  have hcontinues := hr.evaluated e
  have hreg := hr.without e.name
  have hheap : (e.apply r).heap.nextMark = (e.evaluated r).heap.nextMark ∧
      (e.apply r).heap.nextSource = (e.evaluated r).heap.nextSource := by
    rw [hedited.heap]
    cases e.emptied? r <;> exact ⟨rfl, rfl⟩
  have hscopes := hs.scopes hedited
  -- both registries without the changed parser are what the one before becomes by serving
  have hafter : Unchanged (r.without e.name) ((e.apply r).without e.name) :=
    { parsers := hedited.parsers
      limits := hedited.limits
      mark := Nat.le_trans hcontinues.mark (Nat.le_of_eq hheap.1.symm)
      source := Nat.le_trans hcontinues.source (Nat.le_of_eq hheap.2.symm)
      sound := (hr.apply e).without e.name
      scopes := hscopes }
  have hbefore : Unchanged (r.without e.name) (r.without e.name) :=
    { Continues.refl hreg with scopes := fun _ _ => rfl }
  exact Unchanged.call_eq hreg hafter hbefore m args

/-! ## 5. What the others keep -/

/-- What a change of one parser leaves of the others, and of the one that it makes. -/
structure EditKeeps (r : Registry) (e : Edit) : Prop where
  same : ∀ m, m ≠ e.name → (e.apply r).find? m = r.find? m
  /-- Another parser keeps the variables of its function just when the scope that is emptied is not
  on the scope chain of it, or has no variables. -/
  others : ∀ m p, m ≠ e.name → r.find? m = some p →
    (r.heap.Keeps (e.apply r).heap p.callable ↔
      ∀ k ∈ e.emptied? r, ∀ j ∈ p.callable.captured, k ∈ r.heap.chain j → r.heap.bound k = [])
  /-- So does the new one, of the variables that it was compiled with. -/
  own : ∀ f ∈ e.binds? r, (∃ p, (e.apply r).find? e.name = some p ∧ p.callable = f) ∧
    ((e.evaluated r).heap.Keeps (e.apply r).heap f ↔
      ∀ k ∈ e.emptied? r, ∀ j ∈ f.captured, k ∈ (e.evaluated r).heap.chain j →
        (e.evaluated r).heap.bound k = [])
  /-- Calls that do not need the name, before or after, come to the same where the change spares the
  other parsers. -/
  calls : e.Spares r → ∀ m args, m ≠ e.name →
    (r.without e.name).call m args = r.call m args →
    ((e.apply r).without e.name).call m args = (e.apply r).call m args →
    (e.apply r).call m args = r.call m args

/-- Parsers lose variables to a change of another one exactly when they share the scope that it
empties. -/
theorem Made.edit_keeps (hr : r.Made) (e : Edit) : r.EditKeeps e := by
  have hsound := hr.sound
  have hedited := hsound.edited e
  have hnames := hsound.sameNames_evaluated e
  refine ⟨fun m hm => hedited.find? hm, fun m p _ _ => hedited.keeps_iff hnames p.callable,
    fun f hf => ⟨hedited.binds f hf, hedited.keeps_iff (.refl _) f⟩, ?_⟩
  intro hspares m args _ hbefore hafter
  rw [← hbefore, ← hafter]
  exact hspares.call_eq hsound m args

/-- A function that calls itself by a name that only the scope binds in which it was made. -/
def recursiveSource : String := "function g(n) \x7b return n ? g('') : 'ok'; \x7d"

/-- A parser, and another one that is registered as its name. -/
def aliasRegistry : Registry :=
    ((({} : Registry).register "a" recursiveSource).2.register "b" "a").2

theorem made_aliasRegistry : aliasRegistry.Made :=
  .register (.register (.new {}) "a" recursiveSource) "b" "a"

/-- The theorem for the removal of a parser that has two names. -/
theorem edit_keeps_aliasRegistry :
    aliasRegistry.Made ∧ aliasRegistry.EditKeeps (.remove "a") :=
  ⟨made_aliasRegistry, made_aliasRegistry.edit_keeps (.remove "a")⟩

/-- The text of an outcome. -/
def outcomeText : Except Error (String × String × Json) → String
  | .ok s => s.2.1
  | .error e => e.message

/-- The removal of a parser breaks the other one of the same function, though a call of it does not
need the name: the variable by which the function calls itself is gone. -/
theorem not_keeps_alias :
    let after := (Edit.remove "a").apply aliasRegistry
    let args : List Json := [.string "x"]
    aliasRegistry.Made ∧
      (∃ p, aliasRegistry.find? "b" = some p ∧ ¬aliasRegistry.heap.Keeps after.heap p.callable) ∧
      outcomeText ((aliasRegistry.without "a").call "b" args) = "ok" ∧
      outcomeText (aliasRegistry.call "b" args) = "ok" ∧
      outcomeText (after.call "b" args) = "g is not defined" := by
  -- all that has to be computed, together, as the registry is the same
  have hrun : (aliasRegistry.find? "b").map (fun p => p.callable.captured) = some [0] ∧
      aliasRegistry.heap.chain 0 = [0] ∧ aliasRegistry.heap.bound 0 = ["g"] ∧
      ((Edit.remove "a").apply aliasRegistry).heap.bound 0 = [] ∧
      outcomeText ((aliasRegistry.without "a").call "b" [.string "x"]) = "ok" ∧
      outcomeText (aliasRegistry.call "b" [.string "x"]) = "ok" ∧
      outcomeText (((Edit.remove "a").apply aliasRegistry).call "b" [.string "x"]) =
        "g is not defined" := by decide +kernel
  obtain ⟨hcaptured, hchain, hbound, hafter, htexts⟩ := hrun
  obtain ⟨p, hp, hscopes⟩ := Option.map_eq_some_iff.mp hcaptured
  -- the scope that binds g is on the chain of b's function, and is empty afterwards
  refine ⟨made_aliasRegistry, ⟨p, hp, fun hkeeps => ?_⟩, htexts⟩
  have hsub := hkeeps 0 (by rw [hscopes]; exact .head _) 0 (by rw [hchain]; exact .head _)
  rw [hbound, hafter] at hsub
  exact List.not_mem_nil (hsub (.head _))

end Registry

end TraceViewer
