import TraceViewer.Proofs.Snippet.Counters
import TraceViewer.Proofs.Snippet.Writes

/-!
# Scoping is lexical and closed

Whatever code runs, and however it ends, it declares variables in scopes of its own only.  Each
piece of the evaluators spares the variables that its code is safe from, so all levels of them do,
and `Piece.scoping` follows twice from `Piece.frames`: with nothing watched every scope keeps its
names, and with one variable watched the value of it changes by code only that writes it.
-/

namespace TraceViewer.Snippet

variable {S : Setting} {W : Watch} {own : Option Nat} {h : Heap}

/-! ## 1. Methods -/

/-- Results that are safe values. -/
abbrev SafeValue (W : Watch) : Heap → Value → Prop := fun g v => v.Safe W g

abbrev SafeItems (W : Watch) : Heap → List Value → Prop := fun g vs => ∀ v ∈ vs, v.Safe W g

theorem lasting_safeValue : Lasting (SafeValue W) := fun _ _ _ hg hv => hg.safeValue hv

namespace Sparing

theorem plain {v : Value} (hv : v.isPlain) : Sparing S W own h (SafeValue W) (pure v) :=
  .pure (Value.safe_of_plain hv)

theorem property {target : Value} (ht : target.Safe W h) (name : String) :
    Sparing S W own h (SafeValue W) (Snippet.property target name) := by
  unfold Snippet.property
  split
  case h_1 | h_2 => exact mistyped _
  case h_3 =>
    split <;> exact plain rfl
  case h_4 =>
    have hitems := Value.safe_array.mp ht
    split
    · exact plain rfl
    · split
      · exact .pure (Value.safe_getD hitems _)
      · exact plain rfl
  case h_5 _ fields =>
    have hfields := Value.safe_object.mp ht
    cases hv : fields.lookup name with
    | none => exact plain rfl
    | some v => exact .pure (Value.safe_lookup hfields hv)
  case h_6 =>
    repeat' split
    all_goals exact plain rfl
  case h_7 => exact plain rfl

theorem keyed {target : Value} (ht : target.Safe W h) (key : Value) :
    Sparing S W own h (SafeValue W) (Snippet.keyed target key) := by
  unfold Snippet.keyed
  split
  case h_1 =>
    split
    · exact .pure (Value.safe_getD (Value.safe_array.mp ht) _)
    · exact plain rfl
  case h_2 => split <;> exact plain rfl
  case h_3 => exact property ht _

theorem typed (outcome : Except TypeFault α) :
    Sparing S W own h (fun _ _ => True) (Run.typed outcome) := by
  cases outcome with
  | ok a => exact .pure trivial
  | error fault => exact mistyped fault

theorem firstMatch (searcher : Regex.Searcher) (text : List Char) :
    Sparing S W own h (SafeValue W) (Snippet.firstMatch searcher text) := by
  unfold Snippet.firstMatch
  split
  · exact plain rfl
  · refine newArray fun v hv => ?_
    obtain ⟨span, _, rfl⟩ := List.mem_map.mp hv
    exact Value.safe_of_plain (isPlain_groupValue text span)

theorem allMatches (searcher : Regex.Searcher) (text : List Char) :
    Sparing S W own h (SafeValue W) (Snippet.allMatches searcher text) := by
  unfold Snippet.allMatches
  split
  · exact plain rfl
  · refine newArray fun v hv => ?_
    obtain ⟨m, _, rfl⟩ := List.mem_map.mp hv
    exact Value.safe_of_plain (isPlain_groupValue text _)

/-- Calls that spare watched variables when the function and its arguments are safe. -/
def Calls (S : Setting) (W : Watch) (own : Option Nat) (call : Call) : Prop :=
  ∀ h f args, f.Safe W h → SafeItems W h args → Sparing S W own h (SafeValue W) (call f args)

section Methods

variable {library : Regex.Library} {call : Call} (hcall : Calls S W own call)
include hcall

theorem replaceFrom (searcher : Regex.Searcher) (text : List Char) {replacement : Value}
    (hr : replacement.Safe W h) (ms : List Regex.Match) (last : Nat) (pieces : List (List Char)) :
    Sparing S W own h (fun _ _ => True)
      (Snippet.replaceFrom call searcher text replacement last pieces ms) := by
  induction ms generalizing h last pieces with
  | nil => exact .pure trivial
  | cons m rest ih =>
    unfold Snippet.replaceFrom
    refine .bind (P := fun _ _ => True) ?_ fun g _ hg _ => ih (hg.inPlace.safeValue hr) _ _
    unfold replacementFor
    split
    · refine .bind (hcall h _ _ hr fun v hv => ?_) fun _ _ _ _ => .pure trivial
      obtain ⟨span, _, rfl⟩ := List.mem_map.mp hv
      exact Value.safe_of_plain (isPlain_groupValue text span)
    · exact .pure trivial

theorem replaceMatches (text : List Char) (pattern : Value) {replacement : Value}
    (hr : replacement.Safe W h) (all : Bool) :
    Sparing S W own h (SafeValue W)
      (Snippet.replaceMatches library call text pattern replacement all) :=
  .bind (typed _) fun _ _ hg _ =>
    .map (replaceFrom hcall _ text (hg.inPlace.safeValue hr) _ 0 []) fun _ _ _ =>
      Value.safe_of_plain rfl

theorem textMethod (s name : String) {args : List Value} (hargs : SafeItems W h args) :
    Sparing S W own h (SafeValue W) (Snippet.textMethod library call s name args) := by
  unfold Snippet.textMethod
  dsimp only
  split
  · refine .bind (typed _) fun _ searcher _ _ => ?_
    split
    · exact allMatches _ _
    · exact firstMatch _ _
  · refine newArray fun v hv => ?_
    exact Value.safe_of_plain (isPlain_of_mem_splitParts _ (List.mem_of_mem_take hv))
  case h_16 | h_17 => exact replaceMatches hcall _ _ (Value.safe_getD hargs 1) _
  case h_18 => exact mistyped _
  all_goals first
    | exact plain rfl
    | split <;> exact plain rfl

theorem onItem {f item : Value} (hf : f.Safe W h) (hi : item.Safe W h) (n : Nat) :
    Sparing S W own h (SafeValue W) (Snippet.onItem S.limits call f item n) := by
  refine .bind (tick _) fun g _ hg _ => hcall g f _ (hg.inPlace.safeValue hf) fun v hv => ?_
  rcases List.mem_cons.mp hv with rfl | hv
  · exact hg.inPlace.safeValue hi
  · cases List.mem_singleton.mp hv
    exact Value.safe_of_plain rfl

variable {f : Value} (hf : f.Safe W h) {items : List Value} (hitems : SafeItems W h items)
include hf hitems

theorem mapItems {acc : List Value} (hacc : SafeItems W h acc) (n : Nat) :
    Sparing S W own h (SafeItems W) (Snippet.mapItems S.limits call f acc n items) := by
  induction items generalizing h acc n with
  | nil => exact .pure fun v hv => hacc v (List.mem_reverse.mp hv)
  | cons item rest ih =>
    rw [SafeItems, List.forall_mem_cons] at hitems
    refine .bind (onItem hcall hf hitems.1 n) fun g v hg hv => ?_
    refine ih (hg.inPlace.safeValue hf) (fun v hv => hg.inPlace.safeValue (hitems.2 v hv)) ?_ _
    exact List.forall_mem_cons.mpr ⟨hv, fun v hv => hg.inPlace.safeValue (hacc v hv)⟩

theorem filterItems {acc : List Value} (hacc : SafeItems W h acc) (n : Nat) :
    Sparing S W own h (SafeItems W) (Snippet.filterItems S.limits call f acc n items) := by
  induction items generalizing h acc n with
  | nil => exact .pure fun v hv => hacc v (List.mem_reverse.mp hv)
  | cons item rest ih =>
    rw [SafeItems, List.forall_mem_cons] at hitems
    refine .bind (onItem hcall hf hitems.1 n) fun g v hg _ => ?_
    refine ih (hg.inPlace.safeValue hf) (fun v hv => hg.inPlace.safeValue (hitems.2 v hv)) ?_ _
    have hacc (v : Value) (hv : v ∈ acc) := hg.inPlace.safeValue (hacc v hv)
    split
    · exact List.forall_mem_cons.mpr ⟨hg.inPlace.safeValue hitems.1, hacc⟩
    · exact hacc

theorem findItem (wanted : Bool) (n : Nat) :
    Sparing S W own h (fun g found => ∀ p, found = some p → p.1.Safe W g)
      (Snippet.findItem S.limits call f wanted n items) := by
  induction items generalizing h n with
  | nil => exact .pure nofun
  | cons item rest ih =>
    rw [SafeItems, List.forall_mem_cons] at hitems
    refine .bind (onItem hcall hf hitems.1 n) fun g v hg _ => ?_
    split
    · refine .pure fun p hp => ?_
      cases hp
      exact hg.inPlace.safeValue hitems.1
    · exact ih (hg.inPlace.safeValue hf) (fun v hv => hg.inPlace.safeValue (hitems.2 v hv)) _

theorem foldItems {acc : Value} (hacc : acc.Safe W h) (n : Nat) :
    Sparing S W own h (SafeValue W) (Snippet.foldItems S.limits call f acc n items) := by
  induction items generalizing h acc n with
  | nil => exact .pure hacc
  | cons item rest ih =>
    rw [SafeItems, List.forall_mem_cons] at hitems
    refine .bind (tick _) fun g₁ _ hg₁ _ => ?_
    refine .bind (hcall g₁ f _ (hg₁.inPlace.safeValue hf) fun v hv => ?_) fun g₂ v hg₂ hv => ?_
    · simp only [List.mem_cons, List.not_mem_nil, or_false] at hv
      rcases hv with rfl | rfl | rfl
      · exact hg₁.inPlace.safeValue hacc
      · exact hg₁.inPlace.safeValue hitems.1
      · exact Value.safe_of_plain rfl
    · have hg := hg₁.inPlace.trans hg₂.inPlace
      exact ih (hg.safeValue hf) (fun v hv => hg.safeValue (hitems.2 v hv)) hv _

omit hf in
theorem arrayMethod (target : Value) (name : String) {args : List Value}
    (hargs : SafeItems W h args) :
    Sparing S W own h (SafeValue W)
      (Snippet.arrayMethod S.limits call target items name args) := by
  have hfirst : (argument args 0).Safe W h := Value.safe_getD hargs 0
  have hfound (wanted : Bool) := findItem hcall hfirst hitems wanted 0
  unfold Snippet.arrayMethod
  dsimp only
  split
  · exact mistyped _
  · split
    · exact .bind (mapItems hcall hfirst hitems (fun _ hv => absurd hv List.not_mem_nil) 0)
        fun _ _ _ => newArray
    · exact .bind (filterItems hcall hfirst hitems (fun _ hv => absurd hv List.not_mem_nil) 0)
        fun _ _ _ => newArray
    · exact .bind (hfound true) fun _ _ _ _ => plain rfl
    · exact .bind (hfound false) fun _ _ _ _ => plain rfl
    · refine .bind (hfound true) fun _ found _ hp => ?_
      cases found with
      | none => exact plain rfl
      | some p => exact .pure (hp p rfl)
    · refine .bind (hfound true) fun _ found _ _ => ?_
      cases found <;> exact plain rfl
    · split
      · next start hstart =>
        exact foldItems hcall hfirst hitems (hargs _ (List.mem_of_getElem? hstart)) 0
      · rw [SafeItems, List.forall_mem_cons] at hitems
        exact foldItems hcall hfirst hitems.2 hitems.1 1
      · exact mistyped _
    · exact plain rfl
    · split <;> exact plain rfl
    · exact plain rfl
    · exact newArray fun v hv => hitems v (List.mem_of_mem_drop (List.mem_of_mem_take hv))
    · refine newArray fun v hv => ?_
      rcases List.mem_append.mp hv with hv | hv
      · exact hitems v hv
      · obtain ⟨arg, harg, hv⟩ := List.mem_flatMap.mp hv
        exact Value.safe_spread (hargs arg harg) v hv
    · exact .pure (Value.safe_itemAt hitems _)
    · exact plain rfl
    · exact mistyped _

omit hf hitems in
theorem builtinMethod {target : Value} (ht : target.Safe W h) (name : String) {args : List Value}
    (hargs : SafeItems W h args) :
    Sparing S W own h (SafeValue W)
      (Snippet.builtinMethod library S.limits call target name args) := by
  unfold Snippet.builtinMethod
  split
  · exact textMethod hcall _ name hargs
  · exact arrayMethod hcall (Value.safe_array.mp ht) _ name hargs
  · split
    · exact plain rfl
    · split
      · exact plain rfl
      · exact mistyped _
  · split
    · exact plain rfl
    · exact mistyped _
  · dsimp only
    split
    · exact plain rfl
    · split
      · exact firstMatch _ _
      · exact mistyped _
  · exact mistyped _

omit hf hitems in
theorem method {target : Value} (ht : target.Safe W h) (name : String) {args : List Value}
    (hargs : SafeItems W h args) :
    Sparing S W own h (SafeValue W) (Snippet.method library S.limits call target name args) := by
  unfold Snippet.method
  split
  · split
    · next f hf =>
      split
      · exact hcall h f args (Value.safe_lookup (Value.safe_object.mp ht) hf) hargs
      · exact mistyped _
    · exact mistyped _
  · exact mistyped _
  · exact mistyped _
  · exact builtinMethod hcall ht name hargs

end Methods

end Sparing

/-- Storing a value and giving it. -/
theorem Sparing.storing {env : Env} {name : String} {v : Value} (hs : h.Safe W env.scope [name])
    (hv : v.Safe W h) :
    Sparing S W own h (SafeValue W) (do Eval.store env name v; return v) :=
  .bind (.store hs hv) fun _ _ hg _ => .pure (hg.inPlace.safeValue hv)

/-! ## 2. Calls and expressions -/

/-- Results that are safe values, if any. -/
abbrev SafeOption (W : Watch) : Heap → Option Value → Prop :=
  fun g v? => ∀ v, v? = some v → v.Safe W g

abbrev SafeFlow (W : Watch) : Heap → Flow → Prop := fun g flow => SafeOption W g flow.returned

abbrev SafeStep (W : Watch) : Heap → Option Flow → Prop :=
  fun g step => ∀ flow, step = some flow → SafeFlow W g flow

theorem lasting_safeFlow : Lasting (SafeFlow W) :=
  fun _ _ _ hg hflow v hv => hg.safeValue (hflow v hv)

theorem lasting_safeStep : Lasting (SafeStep W) :=
  fun _ _ _ hg hstep flow hflow => lasting_safeFlow _ _ _ hg (hstep flow hflow)

theorem safe_bindParams {params : List String} {args : List Value} (hargs : SafeItems W h args) :
    ∀ f ∈ Eval.bindParams params args, f.2.Safe W h := by
  have hall : ∀ p ∈ params.zip (args ++ List.replicate params.length Value.undefined),
      p.2.Safe W h := by
    intro p hp
    rcases List.mem_append.mp (List.of_mem_zip hp).2 with hmem | hmem
    · exact hargs _ hmem
    · rw [List.eq_of_mem_replicate hmem]
      exact Value.safe_of_plain rfl
  refine List.foldlRecOn (motive := fun vars : List (String × Value) => ∀ f ∈ vars, f.2.Safe W h)
    _ _ (fun _ hf => absurd hf List.not_mem_nil) fun vars hvars p hp f hf => ?_
  rcases mem_setVar hf with rfl | hf
  · exact hall p hp
  · exact hvars f hf

/-- Whether a statement makes scopes for all that it declares. -/
def Stmt.opensScope : Stmt → Bool
  | .block _ | .countLoop .. | .eachLoop .. => true
  | _ => false

/-- Evaluators that spare watched variables when the code is safe from them. -/
structure Evaluators.Sparing (S : Setting) (W : Watch) (inner : Evaluators) : Prop where
  eval : ∀ {own : Option Nat} {h : Heap} {env : Env} {e : Expr}, h.Safe W env.scope e.writes →
    Snippet.Sparing S W own h (SafeValue W) (inner.eval env e)
  target : ∀ {own : Option Nat} {h : Heap} {env : Env} {e : Expr}, h.Safe W env.scope e.writes →
    Snippet.Sparing S W own h (SafeOption W) (inner.target env e)
  exec : ∀ {h : Heap} {env : Env} {s : Stmt}, h.Safe W env.scope s.writes →
    Snippet.Sparing S W (some env.scope) h (SafeFlow W) (inner.exec env s)

namespace Evaluators.Sparing

variable {inner : Evaluators} (hin : inner.Sparing S W) {env : Env}

theorem hoist {body : List Stmt} (hs : h.Safe W env.scope (stmtsWrites body)) :
    Snippet.Sparing S W (some env.scope) h (fun _ _ => True) (Eval.hoist env body) := by
  induction body generalizing h with
  | nil => exact .pure trivial
  | cons s rest ih =>
    rw [stmtsWrites, Heap.safe_append] at hs
    cases s with
    | function f =>
      unfold Eval.hoist
      dsimp only
      split
      · refine .bind (.closure hs.1) fun g₁ v hg₁ hv => .bind (.declare _ hv) fun g₂ _ hg₂ _ => ?_
        exact ih ((hg₁.trans hg₂).inPlace.safe hs.2)
      · exact ih hs.2
    | _ => exact ih hs.2

include hin

theorem execAll {body : List Stmt} (hs : h.Safe W env.scope (stmtsWrites body)) :
    Snippet.Sparing S W (some env.scope) h (SafeFlow W) (Eval.execAll inner env body) := by
  induction body generalizing h with
  | nil => exact .pure nofun
  | cons s rest ih =>
    rw [stmtsWrites, Heap.safe_append] at hs
    refine .bind (hin.exec hs.1) fun g flow hg hflow => ?_
    cases flow with
    | normal => exact ih (hg.inPlace.safe hs.2)
    | _ => exact .pure hflow

theorem execBlock {body : List Stmt} (hs : h.Safe W env.scope (stmtsWrites body)) :
    Snippet.Sparing S W (some env.scope) h (SafeFlow W) (Eval.execBlock inner env body) :=
  .bind (hoist hs) fun _ _ hg _ => hin.execAll (hg.inPlace.safe hs)

theorem runBody {body : Body} (hs : h.Safe W env.scope body.writes) :
    Snippet.Sparing S W (some env.scope) h (SafeValue W) (Eval.runBody inner env body) := by
  cases body with
  | expr e => exact hin.eval hs
  | block body =>
    refine .bind (hin.execBlock hs) fun g flow _ hflow => ?_
    cases flow with
    | «return» v => exact .pure (hflow v rfl)
    | _ => exact .plain rfl

/-- A function runs in a new scope inside the one that it was made in. -/
theorem call : Snippet.Sparing.Calls S W own (Eval.call S inner) := by
  intro h f args hf hargs
  unfold Eval.call
  split
  · next c =>
    rw [Value.safe_closure, Function.writes_eq] at hf
    exact .counted (.inScope lasting_safeValue (safe_bindParams hargs)
      fun _ hinside => hin.runBody (hinside _ hf))
  · exact .plain (isPlain_applyBuiltin _ _)
  · exact .mistyped _

theorem evalAll {es : List Expr} (hs : h.Safe W env.scope (exprsWrites es)) :
    Snippet.Sparing S W own h (SafeItems W) (Eval.evalAll inner env es) := by
  induction es generalizing h with
  | nil => exact .pure fun v hv => absurd hv List.not_mem_nil
  | cons e rest ih =>
    rw [exprsWrites, Heap.safe_append] at hs
    refine .bind (hin.eval hs.1) fun g₁ v hg₁ hv => ?_
    refine .bind (ih (hg₁.inPlace.safe hs.2)) fun g₂ vs hg₂ hvs => .pure ?_
    exact List.forall_mem_cons.mpr ⟨hg₂.inPlace.safeValue hv, hvs⟩

theorem evalEntries {entries : List (String × Expr)}
    (hs : h.Safe W env.scope (entriesWrites entries)) {acc : Fields Value}
    (hacc : ∀ f ∈ acc, f.2.Safe W h) :
    Snippet.Sparing S W own h (fun g fields => ∀ f ∈ fields, f.2.Safe W g)
      (Eval.evalEntries inner env acc entries) := by
  induction entries generalizing h acc with
  | nil => exact .pure hacc
  | cons entry rest ih =>
    rw [entriesWrites, Heap.safe_append] at hs
    refine .bind (hin.eval hs.1) fun g v hg hv => ih (hg.inPlace.safe hs.2) fun f hf => ?_
    have hold : Fields.Rel (fun v _ => v.Safe W g) acc acc :=
      .refl_of_forall fun f hf => hg.inPlace.safeValue (hacc f hf)
    exact (hold.set hv entry.1).self_of_mem hf

theorem evalTemplate {parts : List String} {holes : List Expr}
    (hs : h.Safe W env.scope (exprsWrites holes)) (acc : String) :
    Snippet.Sparing S W own h (fun _ _ => True) (Eval.evalTemplate inner env acc parts holes) := by
  induction parts generalizing h acc holes with
  | nil => cases holes <;> exact .pure trivial
  | cons part parts ih =>
    cases holes with
    | nil => exact .pure trivial
    | cons e holes =>
      rw [exprsWrites, Heap.safe_append] at hs
      exact .bind (hin.eval hs.1) fun g _ hg _ => ih (hg.inPlace.safe hs.2) _

theorem linkTarget {object : Expr} (hs : h.Safe W env.scope object.writes) (guarded : Bool) :
    Snippet.Sparing S W own h (SafeOption W) (Eval.linkTarget inner env object guarded) := by
  refine .bind (hin.target hs) fun g v? _ hv => .pure fun v hmem => ?_
  exact hv v (Option.eq_some_of_filter_eq_some hmem)

/-- A method call writes a variable where it pushes to it. -/
theorem callMethod {object : Expr} {target : Value} {name : String} {guarded : Bool}
    (hs : h.Safe W env.scope (pushedTo (.member object name guarded))) (ht : target.Safe W h)
    {args : List Value} (hargs : SafeItems W h args) :
    Snippet.Sparing S W own h (SafeValue W)
      (Eval.callMethod S inner env object target name args) := by
  unfold Eval.callMethod
  split
  · split
    · next hname =>
      rw [pushedTo, if_pos hname] at hs
      exact .push hs (Value.safe_array.mp ht) hargs
    · exact .method hin.call ht name hargs
  · exact .method hin.call ht name hargs

theorem evalChain {e : Expr} (hs : h.Safe W env.scope e.writes) :
    Snippet.Sparing S W own h (SafeOption W) (Eval.evalChain S inner env e) := by
  have hsome (g : Heap) (v : Value) (hv : v.Safe W g) : SafeOption W g (some v) := by
    rintro _ ⟨⟩
    exact hv
  have hnone (g : Heap) : SafeOption W g none := nofun
  induction e using Eval.evalChain.induct generalizing h with
  | case1 object name guarded =>
    rw [Eval.evalChain]
    rw [Expr.writes] at hs
    refine .bind (hin.linkTarget hs guarded) fun g target _ ht => ?_
    cases target with
    | none => exact .pure (hnone g)
    | some target => exact .map (.property (ht target rfl) name) hsome
  | case2 object key guarded =>
    rw [Eval.evalChain]
    rw [Expr.writes, Heap.safe_append] at hs
    refine .bind (hin.linkTarget hs.1 guarded) fun g₁ target hg₁ ht => ?_
    cases target with
    | none => exact .pure (hnone g₁)
    | some target =>
      refine .bind (hin.eval (hg₁.inPlace.safe hs.2)) fun g₂ key hg₂ _ => ?_
      exact .map (.keyed (hg₂.inPlace.safeValue (ht target rfl)) key) hsome
  | case3 object name memberGuarded args guarded =>
    rw [Eval.evalChain]
    rw [Expr.writes, Heap.safe_append, Heap.safe_append, Expr.writes] at hs
    obtain ⟨hpushed, hobject, hargs⟩ := hs
    refine .bind (hin.linkTarget hobject memberGuarded) fun g₁ target hg₁ ht => ?_
    cases target with
    | none => exact .pure (hnone g₁)
    | some target =>
      dsimp only
      split
      · exact .pure (hnone g₁)
      · refine .bind (hin.evalAll (hg₁.inPlace.safe hargs)) fun g₂ vs hg₂ hvs => ?_
        refine .map (hin.callMethod ((hg₁.trans hg₂).inPlace.safe hpushed) ?_ hvs) hsome
        exact hg₂.inPlace.safeValue (ht target rfl)
  -- a callee that is no member of anything is evaluated as a chain of its own
  | case4 callee args guarded hcallee ih =>
    rw [Eval.evalChain.eq_4 _ _ _ _ _ _ hcallee]
    rw [Expr.writes, Heap.safe_append, Heap.safe_append] at hs
    refine .bind (ih hs.2.1) fun g₁ f hg₁ hf => ?_
    cases f with
    | none => exact .pure (hnone g₁)
    | some f =>
      dsimp only
      split
      · exact .pure (hnone g₁)
      · refine .bind (hin.evalAll (hg₁.inPlace.safe hs.2.2)) fun g₂ vs hg₂ hvs => ?_
        split
        · exact .map (hin.call _ f vs (hg₂.inPlace.safeValue (hf f rfl)) hvs) hsome
        · exact .mistyped _
  | case5 e hmember hindex hmethod hcall =>
    rw [Eval.evalChain.eq_5 _ _ _ _ hmember hindex hmethod hcall]
    exact .map (hin.eval hs) hsome

theorem evalBody {e : Expr} (hs : h.Safe W env.scope e.writes) :
    Snippet.Sparing S W own h (SafeValue W) (Eval.evalBody S inner env e) := by
  have hunary (op : UnaryOp) (e : Expr) (hs : h.Safe W env.scope e.writes) :
      Snippet.Sparing S W own h (SafeValue W)
        (do return (← inner.eval env e).applyUnary op) := by
    refine .bind (hin.eval hs) fun _ v _ _ => .plain ?_
    cases op <;> rfl
  cases e with
  | number _ | text _ | bool _ | null | undefined => exact .plain rfl
  | pattern p => exact .pure fun c hc => absurd hc List.not_mem_nil
  | ident name => exact .lookup env name
  | array items => exact .bind (hin.evalAll hs) fun _ _ _ hvs => .newArray hvs
  | object entries =>
    refine .bind (hin.evalEntries hs fun _ hf => absurd hf List.not_mem_nil) ?_
    exact fun _ _ _ hfields => .newObject hfields
  | template parts holes => exact .bind (hin.evalTemplate hs "") fun _ _ _ _ => .plain rfl
  | unary op e =>
    cases op with
    | kindOf =>
      cases e with
      -- asking for the kind of a name that is not bound is no error
      | ident name =>
        refine .bind (.isBound env name) fun _ bound _ _ => ?_
        cases bound with
        | true => exact .bind (.lookup env name) fun _ _ _ _ => .plain rfl
        | false => exact .plain rfl
      | _ => exact hunary _ _ hs
    | _ => exact hunary _ _ hs
  | binary op l r =>
    rw [Expr.writes, Heap.safe_append] at hs
    refine .bind (hin.eval hs.1) fun g₁ a hg₁ _ => ?_
    refine .bind (hin.eval (hg₁.inPlace.safe hs.2)) fun g₂ b _ _ => ?_
    exact .plain (Value.isPlain_applyBinary op a b)
  | logical op l r =>
    rw [Expr.writes, Heap.safe_append] at hs
    refine .bind (hin.eval hs.1) fun g a hg ha => ?_
    split
    · exact .pure ha
    · exact hin.eval (hg.inPlace.safe hs.2)
  | cond test yes no =>
    rw [Expr.writes, Heap.safe_append, Heap.safe_append] at hs
    refine .bind (hin.eval hs.1) fun g a hg _ => ?_
    split
    · exact hin.eval (hg.inPlace.safe hs.2.1)
    · exact hin.eval (hg.inPlace.safe hs.2.2)
  | assign name op e =>
    rw [Expr.writes, Heap.safe_append] at hs
    cases op with
    | none =>
      refine .bind (hin.eval hs.2) fun g v hg hv => ?_
      exact .storing (hg.inPlace.safe hs.1) hv
    | some op =>
      refine .bind (.lookup env name) fun g₁ current hg₁ _ => ?_
      refine .bind (hin.eval (hg₁.inPlace.safe hs.2)) fun g₂ v hg₂ _ => ?_
      have hplain := Value.isPlain_applyBinary op current v
      exact .storing ((hg₁.trans hg₂).inPlace.safe hs.1) (Value.safe_of_plain hplain)
  | update name increment before =>
    refine .bind (.lookup env name) fun g old hg _ => ?_
    refine .bind (.store (hg.inPlace.safe hs) (Value.safe_of_plain rfl)) fun _ _ _ _ => ?_
    exact .plain rfl
  | function f => exact .closure hs
  | member _ _ _ | index _ _ _ | call _ _ _ =>
    refine .bind (hin.evalChain hs) fun _ v? _ hv => ?_
    cases v? with
    | none => exact .plain rfl
    | some v => exact .pure (hv v rfl)

/-! ## 3. Statements -/

theorem iterate {body : Stmt} (hs : h.Safe W env.scope body.writes) :
    Snippet.Sparing S W (some env.scope) h (SafeStep W) (Eval.iterate inner env body) := by
  refine .bind (hin.exec hs) fun g flow _ hflow => ?_
  cases flow with
  | normal | «continue» => exact .pure nofun
  | leave =>
    refine .pure ?_
    rintro _ ⟨⟩
    exact nofun
  | «return» v =>
    refine .pure ?_
    rintro _ ⟨⟩
    exact hflow

theorem goesOn {test : Option Expr} (hs : h.Safe W env.scope (exprOptionWrites test)) :
    Snippet.Sparing S W own h (fun _ _ => True) (Eval.goesOn inner env test) := by
  cases test with
  | none => exact .pure trivial
  | some test => exact .bind (hin.eval hs) fun _ _ _ _ => .pure trivial

theorem countRound {body : Stmt} {update : Option Expr} (hs : h.Safe W env.scope body.writes)
    (hu : h.Safe W env.scope (exprOptionWrites update)) :
    Snippet.Sparing S W (some env.scope) h (SafeStep W)
      (Eval.countRound inner env body update) := by
  refine .bind (hin.iterate hs) fun g step hg hstep => ?_
  cases step with
  | some flow => exact .pure hstep
  | none =>
    refine .bind (P := fun _ _ => True) ?_ fun _ _ _ _ => .pure nofun
    cases update with
    | none => exact .pure trivial
    | some e => exact .bind (hin.eval (hg.inPlace.safe hu)) fun _ _ _ _ => .pure trivial

theorem whileLoop {test : Expr} {body : Stmt} (ht : h.Safe W env.scope test.writes)
    (hs : h.Safe W env.scope body.writes) :
    Snippet.Sparing S W (some env.scope) h (SafeFlow W)
      (do Eval.whileLoop S inner env test body (← Eval.roundsLeft S)) := by
  simp only [Eval.whileLoop_eq_rounds]
  exact .allRounds (fun _ => nofun) (fun _ hg => hin.goesOn (hg.safe ht))
    fun _ hg => hin.iterate (hg.safe hs)

theorem countLoop {init : Option Stmt} {test update : Option Expr} {body : Stmt}
    (hs : h.Safe W env.scope (Stmt.countLoop init test update body).writes) :
    Snippet.Sparing S W (some env.scope) h (SafeFlow W)
      (Eval.countLoop S inner env init test update body) := by
  rw [Stmt.writes, Heap.safe_append, Heap.safe_append, Heap.safe_append] at hs
  obtain ⟨hinit, htest, hupdate, hbody⟩ := hs
  have hrounds {g : Heap} (hg : h.InPlace g) :
      Snippet.Sparing S W (some env.scope) g (SafeFlow W)
        (Eval.allRounds S (Eval.goesOn inner env test) (Eval.countRound inner env body update)) :=
    .allRounds (fun _ => nofun) (fun _ hg' => hin.goesOn ((hg.trans hg').safe htest))
      fun _ hg' => hin.countRound ((hg.trans hg').safe hbody) ((hg.trans hg').safe hupdate)
  unfold Eval.countLoop
  simp only [Eval.countRounds_eq_rounds]
  cases init with
  | none => exact hrounds (.of_scopes rfl)
  | some s => exact .bind (hin.exec hinit) fun _ _ hg _ => hrounds hg.inPlace

theorem eachRound {name : String} {body : Stmt} (hs : h.Safe W env.scope body.writes)
    {items : List Value} (hitems : SafeItems W h items) :
    Snippet.Sparing S W own h (SafeFlow W) (Eval.eachRound S inner env name body items) := by
  induction items generalizing h with
  | nil => exact .pure nofun
  | cons item rest ih =>
    rw [SafeItems, List.forall_mem_cons] at hitems
    refine .bind (.inScope lasting_safeStep ?_ fun _ hinside => hin.iterate (hinside _ hs))
      fun g step hg hstep => ?_
    · exact (List.forall_mem_singleton (p := fun f : String × Value => f.2.Safe W h)).mpr hitems.1
    · cases step with
      | some flow => exact .pure (hstep flow rfl)
      | none => exact ih (hg.inPlace.safe hs) fun v hv => hg.inPlace.safeValue (hitems.2 v hv)

theorem declareAll {bindings : List (String × Option Expr)}
    (hs : h.Safe W env.scope (bindingsWrites bindings)) :
    Snippet.Sparing S W (some env.scope) h (fun _ _ => True)
      (Eval.declareAll inner env bindings) := by
  induction bindings generalizing h with
  | nil => exact .pure trivial
  | cons binding rest ih =>
    obtain ⟨name, init⟩ := binding
    rw [bindingsWrites, Heap.safe_append] at hs
    have hdeclare (g : Heap) (v : Value) (hg : h.InPlace g) (hv : v.Safe W g) :
        Snippet.Sparing S W (some env.scope) g (fun _ _ => True) (do
          Run.changeHeap fun h => h.declare env.scope name v
          Eval.declareAll inner env rest) :=
      .bind (.declare name hv) fun _ _ hg' _ => ih ((hg.trans hg'.inPlace).safe hs.2)
    cases init with
    | none => exact hdeclare h _ (.of_scopes rfl) (Value.safe_of_plain rfl)
    | some e => exact .bind (hin.eval hs.1) fun g v hg hv => hdeclare g v hg.inPlace hv

/-- A block or a loop with a scope of its own declares nothing outside. -/
theorem execClosed {s : Stmt} (hclosed : s.opensScope) (hs : h.Safe W env.scope s.writes) :
    Snippet.Sparing S W own h (SafeFlow W) (Eval.execBody S inner env s) := by
  cases s with
  | block body =>
    unfold Eval.execBody
    exact .inScope lasting_safeFlow (fun _ hf => absurd hf List.not_mem_nil)
      fun _ hinside => hin.execBlock (hinside _ hs)
  | countLoop init test update body =>
    unfold Eval.execBody
    exact .inScope lasting_safeFlow (fun _ hf => absurd hf List.not_mem_nil)
      fun _ hinside => hin.countLoop (hinside _ hs)
  | eachLoop name items body =>
    rw [Stmt.writes, Heap.safe_append] at hs
    refine .bind (hin.eval hs.1) fun g₁ v hg₁ hv => .bind (P := SafeItems W) ?_ ?_
    · unfold Eval.loopItems
      split
      · exact .pure (Value.safe_array.mp hv)
      · refine .pure fun v hv => ?_
        obtain ⟨c, _, rfl⟩ := List.mem_map.mp hv
        exact Value.safe_of_plain rfl
      · exact .mistyped _
    · exact fun g₂ items hg₂ hitems =>
        hin.eachRound ((hg₁.trans hg₂).inPlace.safe hs.2) hitems
  | _ => cases hclosed

theorem execBody {s : Stmt} (hs : h.Safe W env.scope s.writes) :
    Snippet.Sparing S W (some env.scope) h (SafeFlow W) (Eval.execBody S inner env s) := by
  cases s with
  | declare bindings => exact .bind (hin.declareAll hs) fun _ _ _ _ => .pure nofun
  | function _ | empty | leave | «continue» => exact .pure nofun
  | cond test yes no =>
    rw [Stmt.writes, Heap.safe_append, Heap.safe_append] at hs
    refine .bind (hin.eval hs.1) fun g a hg _ => ?_
    split
    · exact hin.exec (hg.inPlace.safe hs.2.1)
    · cases no with
      | some s => exact hin.exec (hg.inPlace.safe hs.2.2)
      | none => exact .pure nofun
  | loop test body =>
    rw [Stmt.writes, Heap.safe_append] at hs
    exact hin.whileLoop hs.1 hs.2
  | block _ | countLoop _ _ _ _ | eachLoop _ _ _ => exact hin.execClosed rfl hs
  | «return» value =>
    cases value with
    | none =>
      refine .pure ?_
      rintro _ ⟨⟩
      exact Value.safe_of_plain rfl
    | some e =>
      refine .bind (hin.eval hs) fun g v _ hv => .pure ?_
      rintro _ ⟨⟩
      exact hv
  | expr e => exact .bind (hin.eval hs) fun _ _ _ _ => .pure nofun

end Evaluators.Sparing

section Levels

variable (S : Setting) (W : Watch)

/-- Without a level left everything is refused, after the step that it takes. -/
theorem sparing_refused {α : Type} {P : Heap → α → Prop} :
    Sparing S W own h P (do Run.tick S.limits; throw (.tooNested maxNesting)) :=
  .bind (.tick _) fun _ _ _ _ => .throw _

/-- All that can be run spares watched variables, whatever the number of levels that are left. -/
theorem sparing_level (n : Nat) : (Eval.level S n).Sparing S W := by
  induction n with
  | zero =>
    exact ⟨fun _ => sparing_refused S W, fun _ => sparing_refused S W, fun _ => sparing_refused S W⟩
  | succ n ih =>
    exact
      { eval := fun hs => .bind (.tick _) fun _ _ hg _ => .nested (ih.evalBody (hg.inPlace.safe hs))
        target := fun hs =>
          .bind (.tick _) fun _ _ hg _ => .nested (ih.evalChain (hg.inPlace.safe hs))
        exec := fun hs =>
          .bind (.tick _) fun _ _ hg _ => .nested (ih.execBody (hg.inPlace.safe hs)) }

theorem sparing_level_exec (n : Nat) {env : Env} {s : Stmt} (hclosed : s.opensScope)
    (hs : h.Safe W env.scope s.writes) :
    Sparing S W own h (SafeFlow W) ((Eval.level S n).exec env s) := by
  cases n with
  | zero => exact sparing_refused S W
  | succ n =>
    exact .bind (.tick _) fun _ _ hg _ =>
      .nested ((sparing_level S W n).execClosed hclosed (hg.inPlace.safe hs))

end Levels

/-! ## 4. Closed pieces of code -/

/-- Runs a statement. -/
def runStmt (setting : Setting) (env : Env) (s : Stmt) : Run Flow := do
  (Eval.within setting (← get).nesting).exec env s

/-- Code that makes scopes for all that it declares: an expression, a block or a loop of that kind,
and the call of a function value. -/
inductive Piece where
  | expr (env : Env) (e : Expr)
  | stmt (env : Env) (s : Stmt) (closed : s.opensScope)
  | call (callee : Value) (args : List Value)

/-- The machine after a piece of code ran, however it ended. -/
def Piece.after (S : Setting) (m : Machine) : Piece → Machine
  | .expr env e => machineAfter (runExpr S env e m)
  | .stmt env s _ => machineAfter (runStmt S env s m)
  | .call callee args => machineAfter (runCall S callee args m)

/-- What may run when a piece of code runs: the code itself in its scope, and the functions at hand,
each in the scope that it was made in.  The code is given by the names that it writes. -/
inductive Piece.Runs (S : Setting) (h : Heap) : Piece → Nat → List String → Prop
  | expr (env : Env) (e : Expr) : Runs S h (.expr env e) env.scope e.writes
  | stmt (env : Env) (s : Stmt) (closed : s.opensScope) :
      Runs S h (.stmt env s closed) env.scope s.writes
  | callee {callee : Value} {args : List Value} {c : Closure} (hc : c ∈ callee.closures) :
      Runs S h (.call callee args) c.scope c.function.writes
  | argument {callee v : Value} {args : List Value} {c : Closure} (hv : v ∈ args)
      (hc : c ∈ v.closures) : Runs S h (.call callee args) c.scope c.function.writes
  | shared {p : Piece} {f : String × Value} {c : Closure} (hf : f ∈ S.globals)
      (hc : c ∈ f.2.closures) : Runs S h p c.scope c.function.writes
  | stored {p : Piece} {i : Nat} {s : Scope} {f : String × Value} {c : Closure}
      (hs : h.scopes[i]? = some s) (hf : f ∈ s.vars) (hc : c ∈ f.2.closures) :
      Runs S h p c.scope c.function.writes

theorem Spares.frames {α : Type} {P : Heap → α → Prop} {x : EStateM.Result Error Machine α}
    (hx : Spares S W own h P x) : h.Frames W own (machineAfter x).heap := by
  cases hx with
  | ok hn _ _ => exact hn
  | error hn _ => exact hn

/-- Variables that are safe from all that may run are spared. -/
theorem Piece.frames (S : Setting) (m : Machine) (p : Piece)
    (hw : ∀ i name, W i name → i < m.heap.scopes.size)
    (hs : ∀ k names, p.Runs S m.heap k names → m.heap.Safe W k names) :
    m.heap.Frames W none (p.after S m).heap := by
  have ht : m.heap.Tame S W :=
    ⟨hw, fun f hf c hc => hs _ _ (.shared hf hc), fun i s hi f hf c hc => hs _ _ (.stored hi hf hc)⟩
  cases p with
  | expr env e =>
    have hrun : Sparing S W none m.heap (SafeValue W) ((Eval.within S m.nesting).eval env e) :=
      (sparing_level S W _).eval (hs _ _ (.expr env e))
    exact (hrun ht m rfl).frames
  | stmt env s closed =>
    have hrun : Sparing S W none m.heap (SafeFlow W) ((Eval.within S m.nesting).exec env s) :=
      sparing_level_exec S W _ closed (hs _ _ (.stmt env s closed))
    exact (hrun ht m rfl).frames
  | call callee args =>
    have hcallee : callee.Safe W m.heap := fun c hc => hs _ _ (.callee hc)
    have hargs : SafeItems W m.heap args := fun v hv c hc => hs _ _ (.argument hv hc)
    have hrun : Sparing S W none m.heap (SafeValue W)
        (Eval.call S (Eval.within S m.nesting) callee args) :=
      (sparing_level S W _).call m.heap callee args hcallee hargs
    exact (hrun ht m rfl).frames

/-- Scoping is lexical and closed.  A piece of code, however it ends, leaves every scope that was
there where it stood and with the variables that it had, in their order; a name that is looked up
from such a scope is found in the scope where it was found before, so what the code declared is seen
from its own scopes only; and a variable has its value still unless code that may have run assigns,
updates or pushes to a variable of that name and stands inside its scope. -/
theorem Piece.scoping (S : Setting) (m : Machine) (p : Piece) :
    let h := m.heap
    let g := (p.after S m).heap
    (∀ (i : Nat) (s : Scope), h.scopes[i]? = some s →
      ∃ t, g.scopes[i]? = some t ∧ t.parent = s.parent ∧
        Fields.names t.vars = Fields.names s.vars) ∧
      (∀ i < h.scopes.size, ∀ name,
        (g.find? i name).map (·.1) = (h.find? i name).map (·.1)) ∧
      ∀ i < h.scopes.size, ∀ name, g.own? i name = h.own? i name ∨
        ∃ k names, p.Runs S h k names ∧ name ∈ names ∧ (k < h.scopes.size → h.Inside i k) := by
  intro h g
  have hframes : h.Frames (fun _ _ => False) none g :=
    p.frames S m (fun _ _ hw => hw.elim) fun _ _ _ => Heap.safe_unwatched
  refine ⟨fun i s hs => ?_, fun i hi name => hframes.find?_fst hi name, fun i hi name => ?_⟩
  · obtain ⟨t, ht, hst, _⟩ := hframes.scope i s hs
    exact ⟨t, ht, hst.parent, hst.closed nofun⟩
  · by_cases hrun : ∃ k names, p.Runs S h k names ∧ name ∈ names ∧
      (k < h.scopes.size → h.Inside i k)
    · exact .inr hrun
    · -- all that may run is safe from this one variable
      left
      have hwatch : h.Frames (fun j x => j = i ∧ x = name) none g := by
        refine p.frames S m (fun j x hw => hw.1 ▸ hi) ?_
        rintro k names hruns x hx j ⟨rfl, rfl⟩
        by_contra hapart
        refine hrun ⟨k, names, hruns, hx, fun hk => ?_⟩
        by_contra hinside
        exact hapart ⟨hk, hinside⟩
      have hs := Array.getElem?_eq_getElem hi
      obtain ⟨t, ht, _, hlookup⟩ := hwatch.scope i _ hs
      unfold Heap.own?
      rw [ht, hs]
      exact hlookup nofun name ⟨rfl, rfl⟩

end TraceViewer.Snippet
