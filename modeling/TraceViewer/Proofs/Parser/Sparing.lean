import TraceViewer.Proofs.Parser.Stateless
import TraceViewer.Proofs.Snippet.Scoping

/-!
# Parsers that cannot write

Whether parsers keep no state is a question about all that may ever be evaluated.  It is answered by
their source texts when no function that can be called writes a variable that the parsers have a way
to: then no filter and no test can write one either, as their own functions stand in scopes of their
own.
-/

namespace TraceViewer

namespace Snippet

variable {S : Setting} {W : Watch} {own : Option Nat} {h : Heap}

/-! ## 1. Documents and scopes of their own -/

namespace Value

mutual

/-- There are no functions in a document. -/
theorem closures_ofJson (mark : Nat) : ∀ j : Json, (ofJson mark j).1.closures = []
  | .null | .bool _ | .number _ | .string _ => rfl
  | .array items => closuresOfItems_ofItems (mark + 1) items
  | .object fields => closuresOfFields_ofFields (mark + 1) fields

theorem closuresOfItems_ofItems (mark : Nat) :
    ∀ items : List Json, closuresOfItems (ofItems mark items).1 = []
  | [] => rfl
  | j :: rest => by
    simp only [ofItems, closuresOfItems, closures_ofJson, closuresOfItems_ofItems,
      List.append_nil]

theorem closuresOfFields_ofFields (mark : Nat) :
    ∀ fields : List (String × Json), closuresOfFields (ofFields mark fields).1 = []
  | [] => rfl
  | (_, j) :: rest => by
    simp only [ofFields, closuresOfFields, closures_ofJson, closuresOfFields_ofFields,
      List.append_nil]

end

end Value

namespace Sparing

variable {α : Type} {Q : Heap → α → Prop}

theorem ofJson (j : Json) :
    Sparing S W own h (SafeValue W) (Run.onHeap fun h => h.ofJson j) := by
  rintro ht m rfl
  have hnone : (Value.ofJson m.heap.nextMark j).1.closures = [] := Value.closures_ofJson _ j
  refine .ok (.of_scopes fun _ _ hs => hs) (ht.of_scopes rfl) fun c hc => ?_
  rw [hnone] at hc
  cases hc

/-- Code in a scope outside all others may write and declare what it likes. -/
theorem opened {vars : List (String × Value)} (hvars : ∀ f ∈ vars, f.2.Safe W h) (source : Nat)
    {body : Env → Run α}
    (hbody : ∀ g env, h.InPlace g → (∀ names, g.Safe W env.scope names) →
      Sparing S W (some env.scope) g Q (body env)) :
    Sparing S W own h Q (do
      let env ← Run.openScope vars source
      body env) := by
  refine widen ?_
  rintro ht m rfl
  have hplace := Heap.InPlace.addScope m.heap none vars
  have hsafe (names : List String) :
      (m.heap.addScope none vars).2.Safe W m.heap.scopes.size names := by
    intro name _ i hi
    refine ⟨?_, fun hinside => ?_⟩
    · show m.heap.scopes.size < (m.heap.scopes.push _).size
      rw [Array.size_push]
      exact Nat.lt_succ_self _
    · -- nothing is around the new scope, and no watched scope is as new
      cases hinside with
      | self => exact absurd (ht.watched _ _ hi) (Nat.lt_irrefl _)
      | outer hs hp _ _ =>
        have hs : (m.heap.scopes.push ⟨vars, none⟩)[m.heap.scopes.size]? = some _ := hs
        rw [Array.getElem?_push_size] at hs
        cases hs
        cases hp
  have hx := hbody _ ⟨m.heap.scopes.size, source⟩ hplace hsafe (ht.addScope none hvars)
    { m with heap := (m.heap.addScope none vars).2 } rfl
  have hnew : m.heap.Frames W none (m.heap.addScope none vars).2 := .addScope ..
  show Spares S W none m.heap Q
    (body ⟨m.heap.scopes.size, source⟩ { m with heap := (m.heap.addScope none vars).2 })
  generalize body _ _ = x at hx
  cases hx with
  | ok hn htn ha => exact .ok (hnew.transNew (Nat.le_refl _) hn) htn ha
  | error hn htn => exact .error (hnew.transNew (Nat.le_refl _) hn) htn

theorem source : Sparing S W own h (fun _ _ => True) (Run.onHeap Heap.source) := by
  rintro ht m rfl
  exact .ok (.of_scopes fun _ _ hs => hs) (ht.of_scopes rfl) trivial

theorem openedTop {vars : List (String × Value)} (hvars : ∀ f ∈ vars, f.2.Safe W h)
    {body : Env → Run α}
    (hbody : ∀ g env, h.InPlace g → (∀ names, g.Safe W env.scope names) →
      Sparing S W (some env.scope) g Q (body env)) :
    Sparing S W own h Q (do
      let env ← Run.openTop vars
      body env) := by
  have hopened : Sparing S W own h Q (do
      let source ← Run.onHeap Heap.source
      let env ← Run.openScope vars source
      body env) := by
    refine .bind source fun g source hg _ => ?_
    exact opened (fun f hf => hg.inPlace.safeValue (hvars f hf)) source
      fun k env hk henv => hbody k env (hg.inPlace.trans hk) henv
  exact hopened

variable {env : Env}

theorem runExpr {e : Expr} (hs : h.Safe W env.scope e.writes) :
    Sparing S W own h (SafeValue W) (runExpr S env e) :=
  .get fun m => (sparing_level S W (maxNesting - m.nesting.now)).eval hs

theorem runCall {f : Value} {args : List Value} (hf : f.Safe W h) (hargs : SafeItems W h args) :
    Sparing S W own h (SafeValue W) (runCall S f args) :=
  .get fun m => (sparing_level S W (maxNesting - m.nesting.now)).call h f args hf hargs

theorem runProgram {program : List Stmt} (hs : h.Safe W env.scope (stmtsWrites program)) :
    Sparing S W (some env.scope) h (fun _ _ => True) (runProgram S env program) :=
  .get fun m => .bind ((sparing_level S W (maxNesting - m.nesting.now)).execBlock hs)
    fun _ _ _ _ => .pure trivial

theorem askHeap {β : Type} (f : Heap → β) :
    Sparing S W own h (fun _ _ => True) (Run.askHeap f) := by
  rintro ht m rfl
  exact .ok (.refl own m.heap) ht trivial

end Sparing

/-- Variables of the same names that have the same values by their names are the same, unless a name
stands twice. -/
theorem eq_of_lookup_eq {vars vars' : List (String × Value)}
    (hnames : Fields.names vars' = Fields.names vars) (hnodup : (Fields.names vars).Nodup)
    (hlookup : ∀ name, vars'.lookup name = vars.lookup name) : vars' = vars := by
  induction vars generalizing vars' with
  | nil => exact List.map_eq_nil_iff.mp hnames
  | cons f rest ih =>
    obtain ⟨n, v⟩ := f
    cases vars' with
    | nil => cases hnames
    | cons f' rest' =>
      obtain ⟨n', v'⟩ := f'
      obtain ⟨rfl, hrest⟩ : n' = n ∧ Fields.names rest' = Fields.names rest :=
        List.cons.inj hnames
      obtain ⟨hnew, hnodup⟩ := List.nodup_cons.mp hnodup
      have hv := hlookup n'
      rw [List.lookup_cons_self, List.lookup_cons_self] at hv
      rw [Option.some.inj hv, ih hrest hnodup fun name => ?_]
      by_cases hname : name = n'
      · have hnone {vars : List (String × Value)} (h : n' ∉ Fields.names vars) :
            vars.lookup n' = none := by
          rw [← Option.not_isSome_iff_eq_none, lookup_isSome_iff]
          exact h
        rw [hname, hnone hnew, hnone (hrest ▸ hnew)]
      · have h := hlookup name
        rwa [List.lookup_cons, List.lookup_cons, beq_false_of_ne hname] at h

/-- A scope all of whose variables were watched is as it was. -/
theorem Heap.Frames.scope_eq {g : Heap} {i : Nat} {s : Scope} (hf : h.Frames W none g)
    (hw : ∀ name, W i name) (hs : h.scopes[i]? = some s) (hnodup : (Fields.names s.vars).Nodup) :
    g.scopes[i]? = some s := by
  obtain ⟨t, ht, hst, hlookup⟩ := hf.scope i s hs
  have hvars := eq_of_lookup_eq (hst.closed nofun) hnodup fun name => hlookup nofun name (hw name)
  have hparent := hst.parent
  rw [ht]
  cases s
  cases t
  cases hvars
  cases hparent
  rfl

end Snippet

namespace Registry

open Snippet

variable {r r' : Registry} {W : Watch}

/-! ## 2. What a registry serves spares watched variables -/

/-- A registry whose functions spare watched variables has gone on and has spared them. -/
structure SparedTo (W : Watch) (r r' : Registry) : Prop where
  setting : r'.setting = r.setting
  frames : r.heap.Frames W none r'.heap
  tame : r'.heap.Tame r'.setting W

theorem SparedTo.refl (ht : r.heap.Tame r.setting W) : SparedTo W r r := ⟨rfl, .refl _ _, ht⟩

theorem SparedTo.trans {r'' : Registry} (h : SparedTo W r r') (g : SparedTo W r' r'') :
    SparedTo W r r'' :=
  ⟨g.setting.trans h.setting, h.frames.trans g.frames, g.tame⟩

theorem sparedTo_perform (ht : r.heap.Tame r.setting W) {α : Type} {run : Setting → Run α}
    {P : Heap → α → Prop} (hrun : Sparing r.setting W none r.heap P (run r.setting)) :
    SparedTo W r (r.perform run).2 := by
  have hsetting : (r.perform run).2.setting = r.setting := by
    unfold setting
    rw [parsers_perform, limits_perform]
  have hx := hrun ht { heap := r.heap } rfl
  generalize hend : run r.setting { heap := r.heap } = x at hx
  cases hx with
  | ok hn htn _ =>
    rw [perform_ok hend] at hsetting ⊢
    exact ⟨hsetting, hn, hsetting ▸ htn⟩
  | error hn htn =>
    rw [perform_error hend] at hsetting ⊢
    exact ⟨hsetting, hn, hsetting ▸ htn⟩

theorem sparedTo_codeValue (ht : r.heap.Tame r.setting W) (name code : String) :
    SparedTo W r (r.codeValue name code).2 := by
  have hprogram (binding : String) (program : List Stmt) :
      SparedTo W r (r.perform fun setting => programValue setting binding program).2 := by
    refine sparedTo_perform (P := fun _ _ => True) ht (.openedTop nofun fun g env _ henv => ?_)
    refine .bind (.runProgram (henv _)) fun _ _ _ _ => ?_
    exact .bind (.askHeap _) fun _ _ _ _ => .bind (.askHeap _) fun _ _ _ _ => .pure trivial
  have hexpr (e : Expr) : SparedTo W r (r.perform fun setting => exprValue setting e).2 :=
    sparedTo_perform ht (.openedTop nofun fun _ _ _ henv => .runExpr (henv _))
  unfold codeValue
  split
  · next binding _ =>
    split
    · exact .refl ht
    · next program _ =>
      have h := hprogram binding program
      split <;>
      · next heq =>
        rw [heq] at h
        exact h
  · split
    · exact .refl ht
    · next e _ =>
      have h := hexpr e
      split <;>
      · next heq =>
        rw [heq] at h
        exact h

theorem Serves.sparedTo (ht : r.heap.Tame r.setting W) (h : Serves r r') : SparedTo W r r' := by
  cases h with
  | source => exact ⟨rfl, .of_scopes fun _ _ hs => hs, ht.of_scopes rfl⟩
  | cell f hf cell =>
    unfold CellFilter.eval
    cases f.parsed with
    | error e => exact .refl ht
    | ok e =>
      have hvars : ∀ x ∈ [("value", Value.text cell)], x.2.Safe W r.heap :=
        List.forall_mem_singleton.mpr (Value.safe_of_plain rfl)
      have h : SparedTo W r (r.perform fun S => do
          let env ← Run.openScope [("value", .text cell)] f.source
          runExpr S env e).2 :=
        sparedTo_perform ht (.opened hvars f.source fun _ _ _ henv => .runExpr (henv _))
      dsimp only
      split <;>
      · next heq =>
        rw [heq] at h
        exact h
  | row f hf event =>
    refine sparedTo_perform (P := SafeValue W) ht (.bind (.ofJson _) fun g row hg hrow => ?_)
    have hvars : ∀ x ∈ [("row", row)], x.2.Safe W g := List.forall_mem_singleton.mpr hrow
    refine .opened hvars f.source fun k env hk henv => ?_
    refine .bind (.runExpr (henv _)) fun n v hn hv => ?_
    split
    · exact .runCall hv (List.forall_mem_singleton.mpr ((hk.trans hn.inPlace).safeValue hrow))
    · exact .pure hv
  | test name input =>
    unfold Registry.test
    split
    · exact .refl ht
    · next p hp =>
      have hcallable : p.callable.Safe W r.heap := ht.globals _ (find?_mem hp)
      have h : SparedTo W r (r.perform fun S => runCall S p.callable [.text input]).2 :=
        sparedTo_perform ht
          (.runCall hcallable (List.forall_mem_singleton.mpr (Value.safe_of_plain rfl)))
      split <;>
      · next heq =>
        rw [heq] at h
        exact h
  | compile name source =>
    have h := sparedTo_codeValue ht name (Text.trim source)
    unfold Registry.compile
    split
    · next heq =>
      rw [heq] at h
      exact h
    · next heq =>
      rw [heq] at h
      split <;> exact h

theorem Evolves.sparedTo (ht : r.heap.Tame r.setting W) (h : Evolves r r') : SparedTo W r r' := by
  induction h with
  | refl => exact .refl ht
  | tail _ step ih => exact ih.trans (step.sparedTo ih.tame)

/-! ## 3. Parsers that keep no state -/

/-- Parsers keep no state when no function that can be called writes a variable that they have a way
to. -/
theorem keepsNoState_of_tame (ht : r.heap.Tame r.setting fun i _ => r.Needs i)
    (hnodup : ∀ (i : Nat) (s : Scope), r.heap.scopes[i]? = some s → (Fields.names s.vars).Nodup) :
    r.KeepsNoState := by
  intro r' h i hi
  have hs := Array.getElem?_eq_getElem (ht.watched i "" hi)
  rw [hs]
  exact (h.sparedTo ht).frames.scope_eq (fun _ => hi) hs (hnodup i _ hs)

/-- Parsers keep no state when there is no function anywhere that assigns a variable, updates one or
pushes to one. -/
theorem keepsNoState_of_writes_nil (hr : r.Sound)
    (hparsers : ∀ p ∈ r.parsers, ∀ c ∈ p.callable.closures, c.function.writes = [])
    (hscopes : ∀ s ∈ r.heap.scopes.toList, (Fields.names s.vars).Nodup ∧
      ∀ f ∈ s.vars, ∀ c ∈ f.2.closures, c.function.writes = []) : r.KeepsNoState := by
  have hmem {i : Nat} {s : Scope} (hs : r.heap.scopes[i]? = some s) :
      s ∈ r.heap.scopes.toList := Array.mem_toList_iff.mpr (Array.mem_of_getElem? hs)
  have hnothing {c : Closure} (hc : c.function.writes = []) (W : Watch) :
      r.heap.Safe W c.scope c.function.writes := by
    rw [hc]
    exact nofun
  refine keepsNoState_of_tame ⟨fun i _ hi => ?_, fun f hf c hc => ?_, fun i s hs f hf c hc => ?_⟩
    fun i s hs => (hscopes s (hmem hs)).1
  · obtain ⟨s, _, hs, _⟩ := hr.heap.scope i i ⟨rfl, hi⟩
    exact (Array.getElem?_eq_some_iff.mp hs).1
  · obtain ⟨p, hp, rfl⟩ := List.mem_map.mp hf
    exact hnothing (hparsers p hp c hc) _
  · exact hnothing ((hscopes s (hmem hs)).2 f hf c hc) _

end Registry

end TraceViewer
