import TraceViewer.Proofs.Snippet.Comparison

/-!
# What code may write

Code writes a variable where it assigns it, updates it or pushes to it, and it finds the variable in
its own scope or in one around it.  So a variable is safe from a function that does not write its
name, and from one whose scope does not stand inside the scope of the variable.

`Heap.Frames W own h g` is what becomes of a heap by code that declares variables in `own` at most
and from which the watched variables `W` are safe: each scope stays where it is, with the names that
it had and with the values of its watched variables.  `Sparing` are the runs that leave such heaps,
and section 5 has a rule for each piece that the evaluators are built from.
-/

namespace TraceViewer.Snippet

/-! ## 1. The names that code writes -/

/-- The variable that a call pushes to, if its callee is the `push` of a variable. -/
def pushedTo : Expr → List String
  | .member (.ident name) property _ => if property == "push" then [name] else []
  | _ => []

mutual

/-- The names that an expression assigns, updates or pushes to, in the functions that it makes as
well. -/
def Expr.writes : Expr → List String
  | .number _ | .text _ | .bool _ | .null | .undefined | .pattern _ | .ident _ => []
  | .array items => exprsWrites items
  | .object entries => entriesWrites entries
  | .unary _ operand => operand.writes
  | .binary _ left right | .logical _ left right => left.writes ++ right.writes
  | .cond test yes no => test.writes ++ (yes.writes ++ no.writes)
  | .assign name _ value => [name] ++ value.writes
  | .update name _ _ => [name]
  | .member object _ _ => object.writes
  | .index object key _ => object.writes ++ key.writes
  | .call callee args _ => pushedTo callee ++ (callee.writes ++ exprsWrites args)
  | .template _ holes => exprsWrites holes
  | .function f => f.writes

def Function.writes : Function → List String
  | .mk _ _ body => body.writes

def Body.writes : Body → List String
  | .expr e => e.writes
  | .block statements => stmtsWrites statements

def Stmt.writes : Stmt → List String
  | .declare bindings => bindingsWrites bindings
  | .function f => f.writes
  | .cond test yes no => test.writes ++ (yes.writes ++ stmtOptionWrites no)
  | .loop test body => test.writes ++ body.writes
  | .countLoop init test update body =>
    stmtOptionWrites init ++ (exprOptionWrites test ++ (exprOptionWrites update ++ body.writes))
  | .eachLoop _ items body => items.writes ++ body.writes
  | .leave | .continue | .empty => []
  | .return value => exprOptionWrites value
  | .block body => stmtsWrites body
  | .expr e => e.writes

def exprsWrites : List Expr → List String
  | [] => []
  | e :: rest => e.writes ++ exprsWrites rest

def entriesWrites : List (String × Expr) → List String
  | [] => []
  | (_, e) :: rest => e.writes ++ entriesWrites rest

def bindingsWrites : List (String × Option Expr) → List String
  | [] => []
  | (_, value) :: rest => exprOptionWrites value ++ bindingsWrites rest

def stmtsWrites : List Stmt → List String
  | [] => []
  | s :: rest => s.writes ++ stmtsWrites rest

def exprOptionWrites : Option Expr → List String
  | none => []
  | some e => e.writes

def stmtOptionWrites : Option Stmt → List String
  | none => []
  | some s => s.writes

end

theorem Function.writes_eq (f : Function) : f.writes = f.body.writes := by
  cases f
  rfl

/-! ## 2. The functions in a value -/

namespace Value

mutual

/-- The functions with a scope that can be reached from a value. -/
def closures : Value → List Closure
  | .closure _ c => [c]
  | .array _ items => closuresOfItems items
  | .object _ fields => closuresOfFields fields
  | _ => []

def closuresOfItems : List Value → List Closure
  | [] => []
  | v :: rest => v.closures ++ closuresOfItems rest

def closuresOfFields : List (String × Value) → List Closure
  | [] => []
  | (_, v) :: rest => v.closures ++ closuresOfFields rest

end

theorem mem_closuresOfItems {c : Closure} {vs : List Value} :
    c ∈ closuresOfItems vs ↔ ∃ v ∈ vs, c ∈ v.closures := by
  induction vs with
  | nil => simp [closuresOfItems]
  | cons v rest ih => simp [closuresOfItems, ih]

theorem mem_closuresOfFields {c : Closure} {fs : List (String × Value)} :
    c ∈ closuresOfFields fs ↔ ∃ f ∈ fs, c ∈ f.2.closures := by
  induction fs with
  | nil => simp [closuresOfFields]
  | cons f rest ih => simp [closuresOfFields, ih]

theorem closures_eq_nil {v : Value} (h : v.isPlain) : v.closures = [] := by
  cases v <;> first | rfl | cases h

end Value

/-! ## 3. Scopes inside each other -/

namespace Heap

variable {h g : Heap}

/-- The scope `i` is the scope itself or around it. -/
inductive Inside (h : Heap) (i : Nat) : Nat → Prop
  | self : Inside h i i
  | outer {k p : Nat} {s : Scope} (hs : h.scopes[k]? = some s) (hp : s.parent = some p)
      (hlt : p < k) (hi : Inside h i p) : Inside h i k

/-- The scopes of a heap stand in another one where they stood. -/
def InPlace (h g : Heap) : Prop :=
  ∀ (j : Nat) (s : Scope), h.scopes[j]? = some s → ∃ t, g.scopes[j]? = some t ∧ t.parent = s.parent

/-- A scope that is there and neither is the scope `i` nor stands inside it. -/
structure Apart (h : Heap) (i k : Nat) : Prop where
  lt : k < h.scopes.size
  outside : ¬h.Inside i k

/-- A variable is found in a scope around the one where the search began. -/
theorem inside_of_find? {k : Nat} {name : String} {found : Nat × Value}
    (hf : h.find? k name = some found) : h.Inside found.1 k := by
  induction k using Nat.strongRecOn with
  | ind k ih =>
    rw [find?] at hf
    split at hf
    · cases hf
    · next s hs =>
      split at hf
      · cases hf
        exact .self
      · split at hf
        · cases hf
        · next p hp =>
          split at hf
          · next hlt => exact .outer hs hp hlt (ih p hlt hf)
          · cases hf

/-- Scopes that stay in place get into no other one. -/
theorem InPlace.inside (hg : h.InPlace g) {i k : Nat} (hk : k < h.scopes.size)
    (hi : g.Inside i k) : h.Inside i k := by
  induction hi with
  | self => exact .self
  | @outer k p t ht hp hpk _ ih =>
    have hs := Array.getElem?_eq_getElem hk
    obtain ⟨t', ht', hparent⟩ := hg k _ hs
    rw [ht] at ht'
    cases ht'
    exact .outer hs (hparent ▸ hp) hpk (ih (by omega))

theorem InPlace.lt (hg : h.InPlace g) {i : Nat} (hi : i < h.scopes.size) : i < g.scopes.size := by
  obtain ⟨t, ht, _⟩ := hg i _ (Array.getElem?_eq_getElem hi)
  exact (Array.getElem?_eq_some_iff.mp ht).1

theorem InPlace.apart (hg : h.InPlace g) {i k : Nat} (hk : h.Apart i k) : g.Apart i k :=
  ⟨hg.lt hk.lt, fun hi => hk.outside (hg.inside hk.lt hi)⟩

theorem InPlace.trans {k : Heap} (hg : h.InPlace g) (hk : g.InPlace k) : h.InPlace k := by
  intro j s hs
  obtain ⟨t, ht, hst⟩ := hg j s hs
  obtain ⟨u, hu, htu⟩ := hk j t ht
  exact ⟨u, hu, htu.trans hst⟩

theorem InPlace.of_scopes (hs : g.scopes = h.scopes) : h.InPlace g :=
  fun _ s hj => ⟨s, hs ▸ hj, rfl⟩

theorem InPlace.modifyVars (h : Heap) (i : Nat)
    (f : List (String × Value) → List (String × Value)) : h.InPlace (h.modifyVars i f) := by
  intro j s hs
  rw [scopes_modifyVars, hs]
  split
  · exact ⟨_, rfl, rfl⟩
  · exact ⟨s, rfl, rfl⟩

theorem InPlace.clearIf (h : Heap) (b : Bool) (i : Nat) : h.InPlace (h.clearIf b i) := by
  cases b with
  | true => exact .modifyVars h i _
  | false => exact .of_scopes rfl

theorem InPlace.addScope (h : Heap) (parent : Option Nat) (vars : List (String × Value)) :
    h.InPlace (h.addScope parent vars).2 := by
  intro j s hs
  have hj := (Array.getElem?_eq_some_iff.mp hs).1
  show ∃ t, (h.scopes.push _)[j]? = some t ∧ _
  rw [Array.getElem?_push_lt hj, ← Array.getElem?_eq_getElem hj, hs]
  exact ⟨s, rfl, rfl⟩

end Heap

theorem lookup_setVar_self (name : String) (v : Value) (vars : List (String × Value)) :
    (setVar name v vars).lookup name = some v := by
  induction vars with
  | nil => rw [setVar, List.lookup_cons_self]
  | cons f rest ih =>
    unfold setVar
    split
    · rw [List.lookup_cons_self]
    · next hf =>
      rw [List.lookup_cons, ih]
      have hne : (name == f.1) = false := by
        rw [beq_eq_false_iff_ne]
        exact fun h => hf (beq_iff_eq.mpr h.symm)
      rw [hne]

theorem lookup_setVar_of_ne {name other : String} (hne : other ≠ name) (v : Value)
    (vars : List (String × Value)) : (setVar name v vars).lookup other = vars.lookup other := by
  induction vars with
  | nil => rw [setVar, List.lookup_cons, beq_false_of_ne hne]
  | cons f rest ih =>
    unfold setVar
    split
    · next hn =>
      rw [List.lookup_cons, List.lookup_cons, beq_false_of_ne hne, beq_iff_eq.mp hn,
        beq_false_of_ne hne]
    · rw [List.lookup_cons, List.lookup_cons, ih]

/-! ## 4. Watched variables -/

/-- Variables that are watched, each by the number of its scope and its name. -/
abbrev Watch := Nat → String → Prop

section Safe

variable {W : Watch} {h g k : Heap} {own : Option Nat}

/-- Code that writes the given names in a scope meets no watched variable. -/
def Heap.Safe (W : Watch) (h : Heap) (scope : Nat) (names : List String) : Prop :=
  ∀ name ∈ names, ∀ i, W i name → h.Apart i scope

/-- A value none of whose functions meets a watched variable. -/
def Value.Safe (W : Watch) (h : Heap) (v : Value) : Prop :=
  ∀ c ∈ v.closures, h.Safe W c.scope c.function.writes

theorem Heap.safe_append {scope : Nat} {as bs : List String} :
    h.Safe W scope (as ++ bs) ↔ h.Safe W scope as ∧ h.Safe W scope bs := by
  unfold Heap.Safe
  rw [List.forall_mem_append]

namespace Value

theorem safe_of_plain {v : Value} (hv : v.isPlain) : v.Safe W h := by
  unfold Safe
  rw [closures_eq_nil hv]
  intro c hc
  cases hc

theorem safe_array {mark : Nat} {items : List Value} :
    (Value.array mark items).Safe W h ↔ ∀ v ∈ items, v.Safe W h := by
  constructor
  · exact fun ha v hv c hc => ha c (mem_closuresOfItems.mpr ⟨v, hv, hc⟩)
  · intro hi c hc
    obtain ⟨v, hv, hc⟩ := mem_closuresOfItems.mp hc
    exact hi v hv c hc

theorem safe_object {mark : Nat} {fields : Fields Value} :
    (Value.object mark fields).Safe W h ↔ ∀ f ∈ fields, f.2.Safe W h := by
  constructor
  · exact fun ho f hf c hc => ho c (mem_closuresOfFields.mpr ⟨f, hf, hc⟩)
  · intro hi c hc
    obtain ⟨f, hf, hc⟩ := mem_closuresOfFields.mp hc
    exact hi f hf c hc

theorem safe_closure {mark : Nat} {c : Closure} :
    (Value.closure mark c).Safe W h ↔ h.Safe W c.scope c.function.writes := by
  show (∀ d ∈ [c], _) ↔ _
  rw [List.forall_mem_singleton]

theorem safe_getD {items : List Value} (hi : ∀ v ∈ items, v.Safe W h) (n : Nat) :
    (items[n]?.getD .undefined).Safe W h := by
  cases hn : items[n]? with
  | none => exact safe_of_plain rfl
  | some v => exact hi v (List.mem_of_getElem? hn)

theorem safe_lookup {fields : Fields Value} (hf : ∀ f ∈ fields, f.2.Safe W h) {name : String}
    {v : Value} (hv : fields.lookup name = some v) : v.Safe W h := hf _ (mem_of_lookup hv)

theorem safe_itemAt {items : List Value} (hi : ∀ v ∈ items, v.Safe W h) (n : Value) :
    (itemAt items n).Safe W h := by
  unfold itemAt
  dsimp only
  repeat' split
  all_goals first
    | exact safe_of_plain rfl
    | exact safe_getD hi _

theorem safe_spread {v : Value} (hv : v.Safe W h) : ∀ x ∈ spread v, x.Safe W h := by
  unfold spread
  split
  · exact safe_array.mp hv
  · exact (List.forall_mem_singleton (p := fun x : Value => x.Safe W h)).mpr hv

end Value

theorem Heap.InPlace.safe (hg : h.InPlace g) {scope : Nat} {names : List String}
    (hs : h.Safe W scope names) : g.Safe W scope names :=
  fun name hname i hi => hg.apart (hs name hname i hi)

theorem Heap.InPlace.safeValue (hg : h.InPlace g) {v : Value} (hv : v.Safe W h) : v.Safe W g :=
  fun c hc => hg.safe (hv c hc)

/-- What becomes of a heap by code that declares variables in `own` at most and from which watched
variables are safe. -/
structure Heap.Frames (W : Watch) (own : Option Nat) (h g : Heap) : Prop where
  scope : ∀ (i : Nat) (s : Scope), h.scopes[i]? = some s → ∃ t, g.scopes[i]? = some t ∧
    s.Follows (own = some i) False t ∧
    (own ≠ some i → ∀ name, W i name → t.vars.lookup name = s.vars.lookup name)

/-- A heap where watched variables exist and are safe from all functions that code can come by. -/
structure Heap.Tame (S : Setting) (W : Watch) (h : Heap) : Prop where
  watched : ∀ i name, W i name → i < h.scopes.size
  globals : ∀ f ∈ S.globals, f.2.Safe W h
  vars : ∀ (i : Nat) (s : Scope), h.scopes[i]? = some s → ∀ f ∈ s.vars, f.2.Safe W h

namespace Heap.Frames

theorem of_scopes (hs : ∀ (i : Nat) (s : Scope), h.scopes[i]? = some s → g.scopes[i]? = some s) :
    h.Frames W own g :=
  ⟨fun i s hi => ⟨s, hs i s hi, .refl _ _ s, fun _ _ _ => rfl⟩⟩

theorem refl (own : Option Nat) (h : Heap) : h.Frames W own h := of_scopes fun _ _ hs => hs

theorem trans (hg : h.Frames W own g) (hk : g.Frames W own k) : h.Frames W own k := by
  refine ⟨fun i s hs => ?_⟩
  obtain ⟨t, ht, hst, hwatch⟩ := hg.scope i s hs
  obtain ⟨u, hu, htu, hwatch'⟩ := hk.scope i t ht
  exact ⟨u, hu,
    ⟨htu.parent.trans hst.parent, List.Subset.trans hst.grows htu.grows,
      fun hown => (htu.closed hown).trans (hst.closed hown), False.elim⟩,
    fun hown name hname => (hwatch' hown name hname).trans (hwatch hown name hname)⟩

theorem widen (hg : h.Frames W none g) : h.Frames W own g := by
  refine ⟨fun i s hs => ?_⟩
  obtain ⟨t, ht, hst, hwatch⟩ := hg.scope i s hs
  have hnone : ¬(none : Option Nat) = some i := nofun
  exact ⟨t, ht, ⟨hst.parent, hst.grows, fun _ => hst.closed hnone, False.elim⟩,
    fun _ => hwatch hnone⟩

/-- Declaring variables in a scope made since is declaring none in those that were there. -/
theorem transNew (hg : h.Frames W none g) {i : Nat} (hi : h.scopes.size ≤ i)
    (hk : g.Frames W (some i) k) : h.Frames W none k := by
  refine ⟨fun j s hs => ?_⟩
  have hj := (Array.getElem?_eq_some_iff.mp hs).1
  have hne : some i ≠ some j := by
    rw [ne_eq, Option.some.injEq]
    omega
  have hnone : (none : Option Nat) ≠ some j := nofun
  obtain ⟨t, ht, hst, hwatch⟩ := hg.scope j s hs
  obtain ⟨u, hu, htu, hwatch'⟩ := hk.scope j t ht
  exact ⟨u, hu,
    ⟨htu.parent.trans hst.parent, List.Subset.trans hst.grows htu.grows,
      fun _ => (htu.closed hne).trans (hst.closed hnone), False.elim⟩,
    fun _ name hname => (hwatch' hne name hname).trans (hwatch hnone name hname)⟩

theorem inPlace (hg : h.Frames W own g) : h.InPlace g := by
  intro i s hs
  obtain ⟨t, ht, hst, _⟩ := hg.scope i s hs
  exact ⟨t, ht, hst.parent⟩

/-- A name is found in the scope where it was found before code that declares nothing. -/
theorem find?_fst (hg : h.Frames W none g) {i : Nat} (hi : i < h.scopes.size) (name : String) :
    (g.find? i name).map (·.1) = (h.find? i name).map (·.1) := by
  refine Heap.find?_fst_eq (fun j _ s hs => ?_) hi
  obtain ⟨t, ht, hst, _⟩ := hg.scope j s hs
  exact ⟨t, ht, hst.parent, hst.closed nofun⟩

/-- Assigning a variable that code may write changes no watched one. -/
theorem assign {scope : Nat} {name : String} (hs : h.Safe W scope [name]) {found : Nat × Value}
    (hf : h.find? scope name = some found) (v : Value) :
    h.Frames W none (h.modifyVars found.1 (setVar name v)) := by
  refine ⟨fun i s hi => ?_⟩
  rw [Heap.scopes_modifyVars]
  by_cases hfound : found.1 = i
  · obtain ⟨s', hs', hlookup⟩ := Heap.lookup_of_find? hf
    rw [hfound, hi] at hs'
    cases hs'
    rw [if_pos hfound, hi]
    refine ⟨_, rfl, Scope.Follows.setVar (.refl _ _ s) (by rw [hlookup]; rfl) False.elim, ?_⟩
    intro _ watched hw
    -- a watched variable of this scope has another name, as the scope is around the code
    have hne : watched ≠ name := by
      rintro rfl
      have hapart := hs watched (List.mem_singleton_self _) i hw
      exact hapart.outside (hfound ▸ Heap.inside_of_find? hf)
    exact lookup_setVar_of_ne hne v s.vars
  · rw [if_neg hfound]
    exact ⟨s, hi, .refl _ _ s, fun _ _ _ => rfl⟩

theorem declare (h : Heap) (i : Nat) (name : String) (v : Value) :
    h.Frames W (some i) (h.declare i name v) := by
  refine ⟨fun j s hs => ?_⟩
  show ∃ t, (h.modifyVars i _).scopes[j]? = some t ∧ _
  rw [Heap.scopes_modifyVars, hs]
  by_cases hij : i = j
  · rw [if_pos hij]
    exact ⟨_, rfl,
      ⟨rfl, subset_names_setVar name v s.vars, fun hown => absurd (congrArg _ hij) hown,
        False.elim⟩,
      fun hown => absurd (congrArg _ hij) hown⟩
  · rw [if_neg hij]
    exact ⟨s, rfl, .refl _ _ s, fun _ _ _ => rfl⟩

theorem addScope (h : Heap) (parent : Option Nat) (vars : List (String × Value)) :
    h.Frames W own (h.addScope parent vars).2 := by
  refine of_scopes fun i s hs => ?_
  have hi := (Array.getElem?_eq_some_iff.mp hs).1
  show (h.scopes.push _)[i]? = some s
  rw [Array.getElem?_push_lt hi, ← Array.getElem?_eq_getElem hi, hs]

/-- Scopes made since may be emptied. -/
theorem clearIf (hg : h.Frames W own g) {i : Nat} (hi : h.scopes.size ≤ i) (b : Bool) :
    h.Frames W own (g.clearIf b i) := by
  refine ⟨fun j s hs => ?_⟩
  have hj := (Array.getElem?_eq_some_iff.mp hs).1
  rw [Heap.scopes_clearIf _ _ _ (by omega)]
  exact hg.scope j s hs

end Heap.Frames

namespace Heap.Tame

variable {S : Setting}

/-- A heap where scopes stay in place and hold safe values is tame. -/
theorem of_inPlace (ht : h.Tame S W) (hg : h.InPlace g)
    (hvars : ∀ (i : Nat) (s : Scope), g.scopes[i]? = some s → ∀ f ∈ s.vars, f.2.Safe W h) :
    g.Tame S W where
  watched i name hi := hg.lt (ht.watched i name hi)
  globals f hf := hg.safeValue (ht.globals f hf)
  vars i s hs f hf := hg.safeValue (hvars i s hs f hf)

theorem of_scopes (ht : h.Tame S W) (hs : g.scopes = h.scopes) : g.Tame S W :=
  ht.of_inPlace (.of_scopes hs) fun i s hi => ht.vars i s (hs ▸ hi)

theorem modifyVars (ht : h.Tame S W) (i : Nat)
    {f : List (String × Value) → List (String × Value)}
    (hf : ∀ vars, (∀ x ∈ vars, x.2.Safe W h) → ∀ x ∈ f vars, x.2.Safe W h) :
    (h.modifyVars i f).Tame S W := by
  refine ht.of_inPlace (.modifyVars h i f) fun j t hj => ?_
  rw [scopes_modifyVars] at hj
  split at hj
  · obtain ⟨s, hs, rfl⟩ := Option.map_eq_some_iff.mp hj
    exact hf s.vars (ht.vars j s hs)
  · exact ht.vars j t hj

theorem setVar (ht : h.Tame S W) (i : Nat) (name : String) {v : Value} (hv : v.Safe W h) :
    (h.modifyVars i (setVar name v)).Tame S W := by
  refine ht.modifyVars i fun vars hvars x hx => ?_
  rcases mem_setVar hx with rfl | hx
  · exact hv
  · exact hvars x hx

theorem clearIf (ht : h.Tame S W) (b : Bool) (i : Nat) : (h.clearIf b i).Tame S W := by
  cases b with
  | true =>
    show (h.modifyVars i fun _ => []).Tame S W
    refine ht.modifyVars i fun _ _ x hx => ?_
    cases hx
  | false => exact ht

theorem addScope (ht : h.Tame S W) (parent : Option Nat) {vars : List (String × Value)}
    (hvars : ∀ f ∈ vars, f.2.Safe W h) : (h.addScope parent vars).2.Tame S W := by
  refine ht.of_inPlace (.addScope h parent vars) fun i s hs => ?_
  have hs : (h.scopes.push ⟨vars, parent⟩)[i]? = some s := hs
  rw [Array.getElem?_push] at hs
  split at hs
  · cases hs
    exact hvars
  · exact ht.vars i s hs

end Heap.Tame

/-- With nothing to watch, all code is safe and every heap is tame. -/
theorem Heap.safe_unwatched {scope : Nat} {names : List String} :
    h.Safe (fun _ _ => False) scope names := fun _ _ _ hw => hw.elim

theorem Heap.tame_unwatched (S : Setting) (h : Heap) : h.Tame S fun _ _ => False where
  watched _ _ hw := hw.elim
  globals _ _ _ _ := safe_unwatched
  vars _ _ _ _ _ _ _ := safe_unwatched

/-- Code that is safe in a scope is safe in a new scope inside it. -/
theorem Heap.Safe.inside {parent : Nat} {names : List String} (hs : h.Safe W parent names)
    (hw : ∀ i name, W i name → i < h.scopes.size) (vars : List (String × Value)) :
    (h.addScope (some parent) vars).2.Safe W h.scopes.size names := by
  intro name hname i hi
  have hapart := (InPlace.addScope h (some parent) vars).apart (hs name hname i hi)
  refine ⟨?_, fun hinside => ?_⟩
  · show h.scopes.size < (h.scopes.push _).size
    rw [Array.size_push]
    exact Nat.lt_succ_self _
  · have hlt := hw i name hi
    cases hinside with
    | self => exact Nat.lt_irrefl _ hlt
    | outer ht hp _ hinside =>
      have ht : (h.scopes.push ⟨vars, some parent⟩)[h.scopes.size]? = some _ := ht
      rw [Array.getElem?_push_size] at ht
      cases ht
      cases hp
      exact hapart.outside hinside

end Safe

/-! ## 5. Runs that spare watched variables -/

/-- How a run ends that began at a heap and declares variables in `own` at most: with a frame of the
heap that is tame again, and with a result that has the property. -/
inductive Spares {α : Type} (S : Setting) (W : Watch) (own : Option Nat) (h : Heap)
    (P : Heap → α → Prop) : EStateM.Result Error Machine α → Prop
  | ok {a : α} {n : Machine} (hn : h.Frames W own n.heap) (ht : n.heap.Tame S W)
      (ha : P n.heap a) : Spares S W own h P (.ok a n)
  | error {e : Error} {n : Machine} (hn : h.Frames W own n.heap) (ht : n.heap.Tame S W) :
      Spares S W own h P (.error e n)

/-- A run that spares watched variables from every machine with the heap, if it is tame. -/
def Sparing {α : Type} (S : Setting) (W : Watch) (own : Option Nat) (h : Heap)
    (P : Heap → α → Prop) (r : Run α) : Prop :=
  h.Tame S W → ∀ m : Machine, m.heap = h → Spares S W own h P (r m)

/-- Properties that outlast what happens to a heap, as long as its scopes stay in place. -/
def Lasting {α : Type} (P : Heap → α → Prop) : Prop := ∀ h g a, h.InPlace g → P h a → P g a

namespace Sparing

variable {α β : Type} {S : Setting} {W : Watch} {own : Option Nat} {h g : Heap}
  {P : Heap → α → Prop} {Q : Heap → β → Prop} {r : Run α}

protected theorem pure {a : α} (ha : P h a) : Sparing S W own h P (pure a) := by
  rintro ht m rfl
  exact .ok (.refl own m.heap) ht ha

protected theorem throw (e : Error) : Sparing S W own h P (throw e) := by
  rintro ht m rfl
  exact .error (.refl own m.heap) ht

theorem mistyped (fault : TypeFault) : Sparing S W own h P (Run.mistyped fault) := .throw _

protected theorem bind {f : α → Run β} (hr : Sparing S W own h P r)
    (hf : ∀ g a, h.Frames W own g → P g a → Sparing S W own g Q (f a)) :
    Sparing S W own h Q (r >>= f) := by
  intro ht m hm
  have hx := hr ht m hm
  show Spares S W own h Q (EStateM.bind r f m)
  unfold EStateM.bind
  generalize r m = x at hx
  cases hx with
  | error hn ht => exact .error hn ht
  | @ok a n hn ht ha =>
    dsimp only
    have hy := hf n.heap a hn ha ht n rfl
    generalize f a n = y at hy
    cases hy with
    | error hk ht => exact .error (hn.trans hk) ht
    | ok hk ht hb => exact .ok (hn.trans hk) ht hb

protected theorem map {f : α → β} (hr : Sparing S W own h P r) (hf : ∀ g a, P g a → Q g (f a)) :
    Sparing S W own h Q (f <$> r) := by
  rw [map_eq_pure_bind]
  exact .bind hr fun g a _ ha => .pure (hf g a ha)

theorem imp {P' : Heap → α → Prop} (hr : Sparing S W own h P r) (hP : ∀ g a, P g a → P' g a) :
    Sparing S W own h P' r := by
  intro ht m hm
  have hx := hr ht m hm
  generalize r m = x at hx
  cases hx with
  | ok hn ht ha => exact .ok hn ht (hP _ _ ha)
  | error hn ht => exact .error hn ht

theorem widen (hr : Sparing S W none h P r) : Sparing S W own h P r := by
  intro ht m hm
  have hx := hr ht m hm
  generalize r m = x at hx
  cases hx with
  | ok hn ht ha => exact .ok hn.widen ht ha
  | error hn ht => exact .error hn.widen ht

/-- A run that begins by looking at the machine. -/
protected theorem get {f : Machine → Run β} (hf : ∀ m, Sparing S W own h Q (f m)) :
    Sparing S W own h Q (MonadState.get >>= f) :=
  fun ht m hm => hf m ht m hm

/-! ### Counters -/

/-- Changing counters changes no heap. -/
theorem leaving {x : EStateM.Result Error Machine α} {f : Machine → Machine}
    (hf : ∀ m, (f m).heap = m.heap) (hx : Spares S W own h P x) :
    Spares S W own h P (leaving f x) := by
  cases hx with
  | @ok a n hn ht ha =>
    rw [← hf n] at hn ht ha
    exact .ok hn ht ha
  | @error e n hn ht =>
    rw [← hf n] at hn ht
    exact .error hn ht

theorem tick (limits : Limits) : Sparing S W own h (fun _ _ => True) (Run.tick limits) := by
  rintro ht m rfl
  unfold Run.tick
  dsimp only
  split
  · exact .error (.refl own m.heap) ht
  · exact .ok (.refl own m.heap) ht trivial

theorem noteEscape (escapes : Bool) :
    Sparing S W own h (fun _ _ => True) (Run.noteEscape escapes) := by
  rintro ht m rfl
  cases escapes <;> exact .ok (.refl own m.heap) ht trivial

theorem counted (hr : Sparing S W own h P r) : Sparing S W own h P (Eval.counted S r) := by
  rintro ht m rfl
  rw [counted_apply]
  split
  · exact .error (.refl own m.heap) ht
  · exact leaving (fun _ => rfl) (hr ht _ rfl)

theorem nested (hr : Sparing S W own h P r) : Sparing S W own h P (Eval.nested r) := by
  rintro ht m rfl
  rw [nested_apply]
  split
  · exact .error (.refl own m.heap) ht
  · exact leaving (fun _ => rfl) (hr ht _ rfl)

/-! ### Values and variables -/

theorem mark : Sparing S W own h (fun _ _ => True) (Run.onHeap Heap.mark) := by
  rintro ht m rfl
  exact .ok (.of_scopes fun _ _ hs => hs) (ht.of_scopes rfl) trivial

theorem newArray {items : List Value} (hi : ∀ v ∈ items, v.Safe W h) :
    Sparing S W own h (fun g v => v.Safe W g) (Run.newArray items) :=
  .bind mark fun _ _ hg _ => .pure (Value.safe_array.mpr fun v hv => hg.inPlace.safeValue (hi v hv))

theorem newObject {fields : Fields Value} (hf : ∀ f ∈ fields, f.2.Safe W h) :
    Sparing S W own h (fun g v => v.Safe W g) (Run.newObject fields) :=
  .bind mark fun _ _ hg _ =>
    .pure (Value.safe_object.mpr fun f hf' => hg.inPlace.safeValue (hf f hf'))

theorem closure {env : Env} {f : Function} (hf : h.Safe W env.scope f.writes) :
    Sparing S W own h (fun g v => v.Safe W g) (Eval.closure env f) :=
  .bind mark fun _ _ hg _ => .pure (Value.safe_closure.mpr (hg.inPlace.safe hf))

theorem globalValue {name : String} {r : Run Value} (hr : globalValue? name = some r) :
    Sparing S W own h (fun g v => v.Safe W g) r := by
  -- what the language provides is plain, or an object of functions without a scope
  have hobject (members : List Builtin) :
      Sparing S W own h (fun g v => v.Safe W g) (builtinObject members) := by
    have hplain : Fields.Rel (fun v _ => v.Safe W h)
        (members.map fun b => (b.name, Value.builtin b))
        (members.map fun b => (b.name, Value.builtin b)) := by
      refine .refl_of_forall fun f hf => ?_
      obtain ⟨b, _, rfl⟩ := List.mem_map.mp hf
      exact Value.safe_of_plain rfl
    exact newObject fun f hf => hplain.ofList.self_of_mem hf
  unfold globalValue? at hr
  split at hr <;> cases hr <;> first | exact .pure (Value.safe_of_plain rfl) | exact hobject _

/-- The value of a variable, a shared name or a global is safe. -/
theorem lookup (env : Env) (name : String) :
    Sparing S W own h (fun g v => v.Safe W g) (Eval.lookup S env name) := by
  unfold Eval.lookup
  refine .bind (P := fun g v? => ∀ v, v? = some v → v.Safe W g) ?_ ?_
  · rintro ht m rfl
    refine .ok (.refl own m.heap) ht fun v hv => ?_
    obtain ⟨found, hfound, rfl⟩ := Option.map_eq_some_iff.mp hv
    obtain ⟨s, hs, hlookup⟩ := Heap.lookup_of_find? hfound
    exact Value.safe_lookup (ht.vars _ s hs) hlookup
  · intro g v? hg hv
    cases v? with
    | some v => exact .pure (hv v rfl)
    | none =>
      dsimp only
      split
      · next v hv =>
        exact fun ht => Sparing.pure (Value.safe_lookup ht.globals hv) ht
      · split
        · next hr => exact globalValue hr
        · exact .throw _

theorem isBound (env : Env) (name : String) :
    Sparing S W own h (fun _ _ => True) (Eval.isBound S env name) := by
  unfold Eval.isBound
  refine .bind (P := fun _ _ => True) ?_ fun _ _ _ _ => .pure trivial
  rintro ht m rfl
  exact .ok (.refl own m.heap) ht trivial

theorem assign {env : Env} {name : String} {v : Value} (hs : h.Safe W env.scope [name])
    (hv : v.Safe W h) : Sparing S W own h (fun _ _ => True) (Eval.assign env name v) := by
  rintro ht m rfl
  rw [SideBySide.assign_apply]
  split
  · next found hf => exact .ok (Heap.Frames.assign hs hf v).widen (ht.setVar _ _ hv) trivial
  · exact .ok (.refl own m.heap) ht trivial

theorem store {env : Env} {name : String} {v : Value} (hs : h.Safe W env.scope [name])
    (hv : v.Safe W h) : Sparing S W own h (fun _ _ => True) (Eval.store env name v) := by
  unfold Eval.store
  refine .bind (noteEscape _) fun g _ hg _ => ?_
  refine .bind (assign (hg.inPlace.safe hs) (hg.inPlace.safeValue hv)) fun _ stored _ _ => ?_
  cases stored with
  | true => exact .pure trivial
  | false => exact .throw _

theorem push {env : Env} {name : String} {items args : List Value}
    (hs : h.Safe W env.scope [name]) (hitems : ∀ v ∈ items, v.Safe W h)
    (hargs : ∀ v ∈ args, v.Safe W h) :
    Sparing S W own h (fun g v => v.Safe W g) (Eval.push env name items args) := by
  have hgrown : ∀ v ∈ items ++ args, v.Safe W h := by
    intro v hv
    rcases List.mem_append.mp hv with hv | hv
    · exact hitems v hv
    · exact hargs v hv
  unfold Eval.push
  refine .bind (assign hs (Value.safe_of_plain rfl)) fun g₁ stored hg₁ _ => ?_
  cases stored with
  | false => exact mistyped _
  | true =>
    refine .bind (noteEscape _) fun g₂ _ hg₂ _ => ?_
    have hg := hg₁.trans hg₂
    refine .bind (newArray fun v hv => hg.inPlace.safeValue (hgrown v hv)) fun g₃ v hg₃ hv => ?_
    refine .bind (assign ((hg.trans hg₃).inPlace.safe hs) hv) fun _ _ _ _ => ?_
    exact .pure (Value.safe_of_plain rfl)

theorem declare {env : Env} (name : String) {v : Value} (hv : v.Safe W h) :
    Sparing S W (some env.scope) h (fun _ _ => True)
      (Run.changeHeap fun h => h.declare env.scope name v) := by
  rintro ht m rfl
  exact .ok (.declare m.heap env.scope name v) (ht.setVar _ _ hv) trivial

/-! ### Scopes and loops -/

/-- Code in a new scope may declare there what it likes, as it is no scope that was there. -/
theorem inScope {env : Env} {parent : Nat} {vars : List (String × Value)}
    {handedOn : α → Option Value} {body : Env → Run α} (hP : Lasting P)
    (hvars : ∀ f ∈ vars, f.2.Safe W h)
    (hbody : ∀ inside : Env, (∀ names, h.Safe W parent names →
        (h.addScope (some parent) vars).2.Safe W inside.scope names) →
      Sparing S W (some inside.scope) (h.addScope (some parent) vars).2 P (body inside)) :
    Sparing S W own h P (Eval.inScope S env parent vars handedOn body) := by
  refine widen ?_
  rintro ht m rfl
  have hnew : m.heap.Frames W none (m.heap.addScope (some parent) vars).2 := .addScope ..
  have hx := hbody { env with scope := m.heap.scopes.size }
    (fun names hs => hs.inside ht.watched vars) (ht.addScope _ hvars)
    { m with heap := (m.heap.addScope (some parent) vars).2 } rfl
  rw [inScope_apply]
  generalize body _ _ = x at hx
  cases hx with
  | @ok a n hn htn ha =>
    refine .ok (.clearIf (hnew.transNew (Nat.le_refl _) hn) (Nat.le_refl _) _) (htn.clearIf _ _) ?_
    exact hP _ _ _ (.clearIf _ _ _) ha
  | error hn htn =>
    exact .error (.clearIf (hnew.transNew (Nat.le_refl _) hn) (Nat.le_refl _) _) (htn.clearIf _ _)

theorem rounds {goes : Run Bool} {round : Run (Option Flow)} {P : Heap → Flow → Prop}
    (hP : ∀ g, P g .normal)
    (hgoes : ∀ g, h.InPlace g → Sparing S W own g (fun _ _ => True) goes)
    (hround : ∀ g, h.InPlace g →
      Sparing S W own g (fun g step => ∀ flow, step = some flow → P g flow) round) (n : Nat) :
    Sparing S W own h P (Eval.rounds S goes round n) := by
  suffices hall : ∀ g, h.InPlace g → Sparing S W own g P (Eval.rounds S goes round n) from
    hall h (.of_scopes rfl)
  induction n with
  | zero => exact fun _ _ => .throw _
  | succ n ih =>
    intro g hg
    refine .bind (hgoes g hg) fun g₁ goesOn hg₁ _ => ?_
    cases goesOn with
    | false => exact .pure (hP g₁)
    | true =>
      refine .bind (hround g₁ (hg.trans hg₁.inPlace)) fun g₂ step hg₂ hstep => ?_
      cases step with
      | some flow => exact .pure (hstep flow rfl)
      | none => exact ih g₂ ((hg.trans hg₁.inPlace).trans hg₂.inPlace)

theorem allRounds {goes : Run Bool} {round : Run (Option Flow)} {P : Heap → Flow → Prop}
    (hP : ∀ g, P g .normal)
    (hgoes : ∀ g, h.InPlace g → Sparing S W own g (fun _ _ => True) goes)
    (hround : ∀ g, h.InPlace g →
      Sparing S W own g (fun g step => ∀ flow, step = some flow → P g flow) round) :
    Sparing S W own h P (Eval.allRounds S goes round) :=
  .get fun _ => rounds hP hgoes hround _

end Sparing

end TraceViewer.Snippet
