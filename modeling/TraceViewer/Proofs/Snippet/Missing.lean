import TraceViewer.Proofs.Snippet.Chaining

/-!
# Guarded calls of methods that are not there

A guarded call ends the chain where there is nothing to call, before its arguments run.  For a
method this is only asked of objects: the value of any other kind has its methods in a table of its
kind, and that a name is not in the table shows only when the arguments have run.
-/

namespace TraceViewer.Snippet

/-! ## 1. The methods of each kind of value -/

def textMethods : List String :=
  ["match", "split", "trim", "trimStart", "trimEnd", "toLowerCase", "toUpperCase", "toString",
    "includes", "startsWith", "endsWith", "indexOf", "charAt", "slice", "substring", "replace",
    "replaceAll"]

def arrayMethods : List String :=
  callbackMethods ++ ["includes", "indexOf", "join", "slice", "concat", "at", "toString"]

def Expr.isVariable : Expr → Bool
  | .ident _ => true
  | _ => false

/-- The methods of a value that an expression has.  An array has "push" as well where it is the
value of a variable. -/
def methodNames (object : Expr) : Value → List String
  | .text _ => textMethods
  | .array _ _ => if object.isVariable then "push" :: arrayMethods else arrayMethods
  | .number _ => ["toFixed", "toString"]
  | .bool _ => ["toString"]
  | .pattern _ _ => ["test", "exec"]
  | _ => []

def Value.isObject : Value → Bool
  | .object _ _ => true
  | _ => false

variable {library : Regex.Library} {call : Call} {limits : Limits} {name : String}
  {args : List Value}

theorem textMethod_of_not_mem {s : String} (h : name ∉ textMethods) :
    textMethod library call s name args = noMethod (.text s) name := by
  unfold textMethod
  split
  -- the last case is any other name, and those before it are in the table
  case h_18 => rfl
  all_goals exact absurd (by decide) h

theorem arrayMethod_of_not_mem {target : Value} {items : List Value} (h : name ∉ arrayMethods) :
    arrayMethod limits call target items name args = noMethod target name := by
  have hcallback : callbackMethods.contains name = false := by
    rw [List.contains_eq_mem, decide_eq_false_iff_not]
    exact fun hmem => h (List.mem_append_left _ hmem)
  unfold arrayMethod
  simp only [hcallback, Bool.false_and, Bool.false_eq_true, if_false]
  split
  case h_15 => rfl
  all_goals exact absurd (by decide) h

/-- A value that is none of null, undefined and an object has the methods of the table. -/
theorem method_of_not_mem {object : Expr} {target : Value} (hnull : target.isNullish = false)
    (hobject : target.isObject = false) (h : name ∉ methodNames object target) :
    method library limits call target name args = noMethod target name := by
  cases target with
  | undefined | null => cases hnull
  | object _ _ => cases hobject
  | closure _ _ | builtin _ => rfl
  | text s => exact textMethod_of_not_mem h
  | array mark items =>
    have harray : name ∉ arrayMethods := by
      intro hmem
      apply h
      simp only [methodNames]
      split
      · exact List.mem_cons_of_mem _ hmem
      · exact hmem
    exact arrayMethod_of_not_mem harray
  | number x =>
    simp only [methodNames, List.mem_cons, List.not_mem_nil, or_false, not_or] at h
    simp only [method, builtinMethod, beq_iff_eq, h.1, h.2, if_false]
  | bool b =>
    simp only [methodNames, List.mem_cons, List.not_mem_nil, or_false] at h
    simp only [method, builtinMethod, beq_iff_eq, h, if_false]
  | pattern source p =>
    simp only [methodNames, List.mem_cons, List.not_mem_nil, or_false, not_or] at h
    simp only [method, builtinMethod, beq_iff_eq, h.1, h.2, if_false]

variable {S : Setting} {inner : Evaluators} {env : Env} {object : Expr} {t : Value}

theorem callMethod_of_not_mem (hnull : t.isNullish = false) (hobject : t.isObject = false)
    (h : name ∉ methodNames object t) :
    Eval.callMethod S inner env object t name args = noMethod t name := by
  unfold Eval.callMethod
  split
  · have hpush : (name == "push") = false := by
      rw [beq_eq_false_iff_ne]
      rintro rfl
      exact h List.mem_cons_self
    rw [hpush, if_neg Bool.false_ne_true]
    exact method_of_not_mem hnull hobject h
  · exact method_of_not_mem hnull hobject h

/-! ## 2. Values that have nothing under a name -/

theorem property_of_not_isNullish (h : t.isNullish = false) : ∃ v, property t name = pure v := by
  cases t with
  | undefined | null => cases h
  | array mark items =>
    simp only [property]
    split
    · exact ⟨_, rfl⟩
    · split <;> exact ⟨_, rfl⟩
  | pattern source p =>
    simp only [property]
    split
    · exact ⟨_, rfl⟩
    · split
      · exact ⟨_, rfl⟩
      · split <;> exact ⟨_, rfl⟩
  | _ => exact ⟨_, rfl⟩

/-- The value of an expression has nothing under a name: it is not null or undefined itself, and has
neither a property of this name, other than null and undefined, nor a method. -/
structure Lacks (object : Expr) (t : Value) (name : String) : Prop where
  present : t.isNullish = false
  property : ∀ m v n, property t name m = .ok v n → v.isNullish = true
  method : name ∉ methodNames object t

theorem lacksMethod_of_isObject (h : Lacks object t name) (ht : t.isObject = true) :
    Eval.lacksMethod t name = true := by
  cases t with
  | object mark fields =>
    have hheld := h.property noVariables ((fields.lookup name).getD .undefined) noVariables rfl
    simp only [Eval.lacksMethod]
    cases hfound : fields.lookup name with
    | none => rfl
    | some w =>
      rw [hfound] at hheld
      exact hheld
  | _ => cases ht

theorem lacksMethod_of_not_isObject (ht : t.isObject = false) :
    Eval.lacksMethod t name = false := by
  cases t with
  | object _ _ => cases ht
  | _ => rfl

/-! ## 3. The call of a method -/

variable {m m₁ : Machine} {memberGuarded : Bool} {es : List Expr}

/-- The target of a link was found, so there were steps and levels for it and for the expression
that the link is part of. -/
theorem lt_of_target_ok {t? : Option Value}
    (ht : (Eval.within S m.entered.nesting).target env object m.entered = .ok t? m₁) :
    m.steps + 1 < S.limits.steps ∧ m.nesting.now + 1 < maxNesting := by
  rw [target_apply] at ht
  unfold stepped at ht
  split at ht
  · cases ht
  · next hsteps =>
    split at ht
    · cases ht
    · next hnesting => exact ⟨Nat.lt_of_not_le hsteps, Nat.lt_of_not_le hnesting⟩

theorem stepped_of_target_ok {t? : Option Value}
    (ht : (Eval.within S m.entered.nesting).target env object m.entered = .ok t? m₁)
    (r : Run Value) : stepped S r m = leaving Machine.left (r m.entered) := by
  obtain ⟨hsteps, hnesting⟩ := lt_of_target_ok ht
  unfold stepped
  rw [if_neg (by omega), if_neg (by omega)]

theorem linkTarget_of_target
    (ht : inner.target env object m = .ok (some t) m₁) (hnull : t.isNullish = false) :
    Eval.linkTarget inner env object memberGuarded m = .ok (some t) m₁ := by
  unfold Eval.linkTarget
  rw [Run.bind_ok ht]
  simp [Option.filter, hnull]
  rfl

/-- How a guarded call of a method goes on once its target is known. -/
theorem runExpr_guardedCall (hnull : t.isNullish = false)
    (ht : (Eval.within S m.entered.nesting).target env object m.entered = .ok (some t) m₁) :
    runExpr S env (.call (.member object name memberGuarded) es true) m =
      leaving Machine.left
        ((if Eval.lacksMethod t name then pure .undefined
          else do
            let args ← Eval.evalAll (Eval.within S m.entered.nesting) env es
            Eval.callMethod S (Eval.within S m.entered.nesting) env object t name args : Run Value)
          m₁) := by
  rw [runExpr_of_isChain rfl, stepped_of_target_ok ht]
  congr 1
  rw [Eval.evalChain, bind_assoc, Run.bind_ok (linkTarget_of_target ht hnull)]
  simp only [Bool.true_and]
  split
  · rfl
  · simp only [bind_assoc, map_eq_pure_bind, pure_bind, Option.getD_some, bind_pure]

theorem runExpr_guardedCall_of_isObject (h : Lacks object t name) (hobject : t.isObject = true)
    (ht : (Eval.within S m.entered.nesting).target env object m.entered = .ok (some t) m₁) :
    runExpr S env (.call (.member object name memberGuarded) es true) m =
      .ok .undefined m₁.left := by
  rw [runExpr_guardedCall h.present ht, lacksMethod_of_isObject h hobject, if_pos rfl]
  rfl

theorem runExpr_guardedCall_of_not_isObject (h : Lacks object t name) (hobject : t.isObject = false)
    (ht : (Eval.within S m.entered.nesting).target env object m.entered = .ok (some t) m₁) :
    runExpr S env (.call (.member object name memberGuarded) es true) m =
      leaving Machine.left
        ((do
          let _ ← Eval.evalAll (Eval.within S m.entered.nesting) env es
          noMethod t name : Run Value) m₁) := by
  rw [runExpr_guardedCall h.present ht, lacksMethod_of_not_isObject hobject]
  simp only [callMethod_of_not_mem h.present hobject h.method, Bool.false_eq_true, if_false]

/-- Arguments in front of a failure do not save it. -/
theorem ne_ok_of_noMethod {r : Run (List Value)} {v : Value} {n : Machine} :
    leaving Machine.left ((do let _ ← r; noMethod t name : Run Value) m₁) ≠ .ok v n := by
  intro h
  cases hr : r m₁ with
  | ok vs m₂ =>
    rw [Run.bind_ok hr] at h
    cases h
  | error e m₂ =>
    rw [Run.bind_error hr] at h
    cases h

/-- A guarded call of what is not there ends with the value undefined, and without its arguments,
exactly where the target is an object.  For every other target the arguments run, and that there is
no such method is an error. -/
theorem guardedCall_lacking (h : Lacks object t name)
    (ht : (Eval.within S m.entered.nesting).target env object m.entered = .ok (some t) m₁) :
    let called := runExpr S env (.call (.member object name memberGuarded) es true) m
    ((∃ v n, called = .ok v n) ↔ t.isObject = true) ∧
      (t.isObject = true → called = .ok .undefined m₁.left) ∧
      (t.isObject = false → called = leaving Machine.left
        ((do
          let _ ← Eval.evalAll (Eval.within S m.entered.nesting) env es
          noMethod t name : Run Value) m₁)) := by
  intro called
  have hends : t.isObject = true → called = .ok .undefined m₁.left :=
    fun hobject => runExpr_guardedCall_of_isObject h hobject ht
  have hfails : t.isObject = false → called = leaving Machine.left
      ((do
        let _ ← Eval.evalAll (Eval.within S m.entered.nesting) env es
        noMethod t name : Run Value) m₁) :=
    fun hobject => runExpr_guardedCall_of_not_isObject h hobject ht
  refine ⟨⟨fun ⟨v, n, hok⟩ => ?_, fun hobject => ⟨_, _, hends hobject⟩⟩, hends, hfails⟩
  cases hobject : t.isObject with
  | true => rfl
  | false => exact absurd ((hfails hobject).symm.trans hok) ne_ok_of_noMethod

/-! ## 4. The same call by a key -/

/-- What is under a key that is a text is what is under the name. -/
theorem keyed_text (hnull : t.isNullish = false) : keyed t (.text name) = property t name := by
  cases t with
  | undefined | null => cases hnull
  | _ => rfl

/-- A text as a key is itself, unless no step or no level is left for it. -/
theorem eval_text (name : String) {t? : Option Value}
    (ht : (Eval.within S m.entered.nesting).target env object m.entered = .ok t? m₁) :
    (∃ n, (Eval.within S m.entered.nesting).eval env (.text name) m₁ = .ok (.text name) n ∧
        n.heap = m₁.heap) ∨
      ∃ e n, (Eval.within S m.entered.nesting).eval env (.text name) m₁ = .error e n ∧
        e.isOfDescent := by
  obtain ⟨-, hnesting⟩ := lt_of_target_ok ht
  have hlevel : Eval.within S m.entered.nesting =
      Eval.level S (maxNesting - (m.nesting.now + 2) + 1) := by
    rw [Eval.within, Machine.entered, Gauge.now_up]
    congr 1
    omega
  rw [hlevel]
  simp only [Eval.level, nested_of_tick]
  unfold stepped
  split
  · exact .inr ⟨_, _, rfl, rfl⟩
  · split
    · exact .inr ⟨_, _, rfl, rfl⟩
    · exact .inl ⟨_, rfl, rfl⟩

/-- By a key every value that lacks what is called ends the call, also one that is no object. -/
theorem runExpr_guardedCall_byKey (h : Lacks object t name) {indexGuarded : Bool}
    (ht : (Eval.within S m.entered.nesting).target env object m.entered = .ok (some t) m₁) :
    (∃ n, runExpr S env (.call (.index object (.text name) indexGuarded) es true) m =
        .ok .undefined n ∧ n.heap = m₁.heap) ∨
      ∃ e n, runExpr S env (.call (.index object (.text name) indexGuarded) es true) m =
        .error e n ∧ e.isOfDescent := by
  obtain ⟨v, hproperty⟩ : ∃ v, property t name = pure v := property_of_not_isNullish h.present
  have hnull : v.isNullish = true := h.property m₁ v m₁ (by rw [hproperty]; rfl)
  rw [runExpr_of_isChain rfl, stepped_of_target_ok ht, Eval.evalChain]
  case x_1 =>
    -- what is called is no member, so that it is asked for as a value
    intro _ _ _ he
    cases he
  rw [Eval.evalChain, bind_assoc, bind_assoc, Run.bind_ok (linkTarget_of_target ht h.present)]
  simp only [bind_assoc]
  rcases eval_text name ht with ⟨n, hkey, hheap⟩ | ⟨e, n, hkey, he⟩
  · left
    rw [Run.bind_ok hkey, keyed_text h.present, hproperty]
    simp only [map_pure, pure_bind, Bool.true_and, hnull, if_true]
    exact ⟨_, rfl, hheap⟩
  · right
    rw [Run.bind_error hkey]
    exact ⟨_, _, rfl, he⟩

/-! ## 5. A method that no value has -/

/-- What a run failed with, if it failed. -/
def Run.fault? {α : Type} (r : Run α) (m : Machine) : Option Error :=
  match r m with
  | .ok _ _ => none
  | .error e _ => some e

theorem Run.eq_error_of_fault? {α : Type} {r : Run α} {p : Error → Bool}
    (h : (r.fault? m).any p = true) : ∃ e n, r m = .error e n ∧ p e = true := by
  unfold Run.fault? at h
  cases hr : r m with
  | ok a n =>
    rw [hr] at h
    cases h
  | error e n =>
    rw [hr] at h
    exact ⟨e, n, rfl, h⟩

/-- A guarded call of a method that is not there, with a variable that is not bound. -/
def missingOf (object : Expr) : Expr := .call (.member object "trimm" false) [.ident "missing"] true

/-- The theorem for an object without fields. -/
theorem guardedCall_lacking_emptyObject :
    ∃ t m₁, (Eval.within {} noVariables.entered.nesting).target ⟨0, 0⟩ (.object [])
        noVariables.entered = .ok (some t) m₁ ∧
      Lacks (.object []) t "trimm" ∧
      runExpr {} ⟨0, 0⟩ (missingOf (.object [])) noVariables = .ok .undefined m₁.left := by
  have htarget : ∃ m₁, (Eval.within {} noVariables.entered.nesting).target ⟨0, 0⟩ (.object [])
      noVariables.entered = .ok (some (.object 0 [])) m₁ := ⟨_, rfl⟩
  obtain ⟨m₁, ht⟩ := htarget
  have hlacks : Lacks (.object []) (.object 0 []) "trimm" := by
    refine ⟨rfl, fun m v n hv => ?_, by decide⟩
    cases hv
    rfl
  exact ⟨_, m₁, ht, hlacks, (guardedCall_lacking hlacks ht).2.1 rfl⟩

/-- A text has no such method either, but the argument runs, and fails. -/
theorem runExpr_missingOf_text :
    Lacks (.text "abc") (.text "abc") "trimm" ∧
      (∃ m₁, (Eval.within {} noVariables.entered.nesting).target ⟨0, 0⟩ (.text "abc")
        noVariables.entered = .ok (some (.text "abc")) m₁) ∧
      ∃ e n, runExpr {} ⟨0, 0⟩ (missingOf (.text "abc")) noVariables = .error e n ∧
        e.message = "missing is not defined" := by
  refine ⟨⟨rfl, fun m v n hv => ?_, by decide⟩, ⟨_, rfl⟩, ?_⟩
  · cases hv
    rfl
  · have hfails : ((runExpr {} ⟨0, 0⟩ (missingOf (.text "abc"))).fault? noVariables).any
        (fun e => e.message == "missing is not defined") = true := by decide +kernel
    obtain ⟨e, n, hrun, hmessage⟩ := Run.eq_error_of_fault? hfails
    exact ⟨e, n, hrun, by simpa using hmessage⟩

end TraceViewer.Snippet
