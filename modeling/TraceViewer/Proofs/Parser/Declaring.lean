import TraceViewer.Parser.Registry
import TraceViewer.Proofs.Parser.Ledger
import TraceViewer.Proofs.Snippet.Running

/-!
# Parsers that only declare a function

A source text that does nothing but declare a function under the parser's name is always registered,
unless no step may be taken at all.  The default parser is such a text.
-/

namespace TraceViewer

namespace Snippet

variable {S : Setting} {env : Env} {f : Function} {m : Machine}

/-! ## 1. Running a declaration -/

/-- Statements that do nothing where they stand.  The function of a declaration was made when its
block began. -/
def Stmt.isIdle : Stmt → Bool
  | .function _ | .empty => true
  | _ => false

/-- A statement that does nothing still takes a step. -/
theorem exec_idle (S : Setting) (env : Env) {s : Stmt} (hs : s.isIdle = true)
    (hnesting : m.nesting.now < maxNesting) :
    ∃ m', m'.heap = m.heap ∧ m'.steps = m.steps + 1 ∧ m'.nesting.now = m.nesting.now ∧
      (Eval.within S m.nesting).exec env s m =
        if S.limits.steps ≤ m.steps then .error (.budgetSpent S.limits.steps) m'
        else .ok .normal m' := by
  rw [exec_apply]
  unfold stepped
  by_cases hsteps : S.limits.steps ≤ m.steps
  · refine ⟨{ m with steps := m.steps + 1 }, rfl, rfl, rfl, ?_⟩
    rw [if_pos hsteps, if_pos hsteps]
  · refine ⟨m.entered.left, rfl, rfl, rfl, ?_⟩
    rw [if_neg hsteps, if_neg hsteps, if_neg (Nat.not_le_of_lt hnesting)]
    cases s with
    | function _ | empty => rfl
    | _ => cases hs

theorem execAll_idle (S : Setting) (env : Env) {body : List Stmt}
    (hbody : ∀ s ∈ body, s.isIdle = true) (hnesting : m.nesting.now < maxNesting)
    (hsteps : m.steps ≤ S.limits.steps) :
    ∃ m', m'.heap = m.heap ∧ Eval.execAll (Eval.within S m.nesting) env body m =
      if S.limits.steps < m.steps + body.length then .error (.budgetSpent S.limits.steps) m'
      else .ok .normal m' := by
  induction body generalizing m with
  | nil => exact ⟨m, rfl, (if_neg (Nat.not_lt_of_le hsteps)).symm⟩
  | cons s rest ih =>
    obtain ⟨hs, hrest⟩ := List.forall_mem_cons.mp hbody
    obtain ⟨m₁, hheap, hsteps₁, hnow, hexec⟩ := exec_idle S env hs hnesting
    unfold Eval.execAll
    rw [List.length_cons]
    by_cases hspent : S.limits.steps ≤ m.steps
    · rw [if_pos hspent] at hexec
      refine ⟨m₁, hheap, ?_⟩
      rw [if_pos (by omega)]
      exact Run.bind_error hexec _
    · rw [if_neg hspent] at hexec
      have hwithin : Eval.within S m.nesting = Eval.within S m₁.nesting := by
        unfold Eval.within
        rw [hnow]
      obtain ⟨m', hheap', hall⟩ := ih (m := m₁) hrest (hnow ▸ hnesting) (by omega)
      refine ⟨m', hheap'.trans hheap, (Run.bind_ok hexec _).trans ?_⟩
      rw [hwithin, ← Nat.add_assoc, Nat.add_right_comm, ← hsteps₁]
      exact hall

/-- A function with semicolons behind it. -/
def Function.alone (f : Function) (semicolons : Nat) : List Stmt :=
  .function f :: List.replicate semicolons .empty

theorem isIdle_of_mem_alone {semicolons : Nat} {s : Stmt} (h : s ∈ f.alone semicolons) :
    s.isIdle = true := by
  rcases List.mem_cons.mp h with rfl | h
  · rfl
  · rw [List.eq_of_mem_replicate h]
    rfl

/-- The heap once the function was declared in the scope of the environment. -/
def Heap.declaring (h : Heap) (env : Env) (f : Function) (name : String) : Heap :=
  h.mark.2.declare env.scope name (.closure h.nextMark ⟨f, env.scope, env.source⟩)

theorem hoist_alone {name : String} (hname : f.name = some name) (semicolons : Nat) :
    Eval.hoist env (f.alone semicolons) m =
      .ok () { m with heap := m.heap.declaring env f name } := by
  have hrest (n : Nat) : Eval.hoist env (List.replicate n .empty) = pure () := by
    induction n with
    | zero => rfl
    | succ n ih => exact ih
  unfold Function.alone Eval.hoist
  rw [hname, hrest]
  rfl

/-- A program that declares a function and does nothing else has no value. -/
theorem runProgram_alone (S : Setting) (env : Env) {name : String} (hname : f.name = some name)
    (semicolons : Nat) (hnesting : m.nesting.now < maxNesting) (hsteps : m.steps ≤ S.limits.steps) :
    ∃ m', m'.heap = m.heap.declaring env f name ∧ runProgram S env (f.alone semicolons) m =
      if S.limits.steps ≤ m.steps + semicolons then .error (.budgetSpent S.limits.steps) m'
      else .ok none m' := by
  obtain ⟨m', hheap, hexec⟩ :=
    execAll_idle (m := { m with heap := m.heap.declaring env f name }) S env
      (fun _ hs => isIdle_of_mem_alone hs) hnesting hsteps
  have hlength : (f.alone semicolons).length = semicolons + 1 := by
    unfold Function.alone
    rw [List.length_cons, List.length_replicate]
  have hblock : Eval.execBlock (Eval.within S m.nesting) env (f.alone semicolons) m = _ :=
    (Run.bind_ok (hoist_alone hname semicolons) _).trans hexec
  rw [hlength, ← Nat.add_assoc] at hblock
  refine ⟨m', hheap, ?_⟩
  rw [runProgram_apply, map_eq_pure_bind]
  by_cases hspent : S.limits.steps ≤ m.steps + semicolons
  · rw [if_pos (Nat.lt_succ_of_le hspent)] at hblock
    rw [if_pos hspent]
    exact Run.bind_error hblock _
  · rw [if_neg (mt Nat.le_of_lt_succ hspent)] at hblock
    rw [if_neg hspent, Run.bind_ok hblock]
    rfl

/-- The scope of a source text that is about to run, and the machine that it runs on. -/
def topEnv (h : Heap) : Env := ⟨h.scopes.size, h.nextSource⟩

def topMachine (h : Heap) : Machine := { heap := (h.source.2.addScope none []).2 }

theorem openTop_apply (h : Heap) : Run.openTop [] { heap := h } = .ok (topEnv h) (topMachine h) :=
  rfl

/-- At the top the function that was declared is the only variable. -/
theorem lookup?_declaring_top (h : Heap) (f : Function) (name other : String) :
    ((topMachine h).heap.declaring (topEnv h) f name).lookup? (topEnv h).scope other =
      if other = name then some (.closure h.nextMark ⟨f, (topEnv h).scope, (topEnv h).source⟩)
      else none := by
  let v : Value := .closure h.nextMark ⟨f, (topEnv h).scope, (topEnv h).source⟩
  have hscope : ((topMachine h).heap.declaring (topEnv h) f name).scopes[(topEnv h).scope]? =
      some ⟨[(name, v)], none⟩ := by
    show ((h.scopes.push ⟨[], none⟩).modify h.scopes.size _)[h.scopes.size]? = _
    rw [Array.getElem?_modify, if_pos rfl, Array.getElem?_push_size]
    rfl
  unfold Heap.lookup? Heap.find?
  rw [hscope]
  dsimp only
  by_cases hname : other = name
  · rw [hname, List.lookup_cons_self, if_pos rfl]
    rfl
  · rw [List.lookup_cons, beq_eq_false_iff_ne.mpr hname, if_neg hname]
    rfl

/-- The value of a source text that declares a function and does nothing else is this function,
under whatever name it is wanted. -/
theorem programValue_alone (S : Setting) (binding : String) {name : String}
    (hname : f.name = some name) (semicolons : Nat) (h : Heap) :
    ∃ mark c m, Registry.programValue S binding (f.alone semicolons) { heap := h } =
      if S.limits.steps ≤ semicolons then .error (.budgetSpent S.limits.steps) m
      else .ok (some (.closure mark c)) m := by
  have hnesting : (topMachine h).nesting.now < maxNesting := Nat.zero_lt_succ _
  obtain ⟨m', hheap, hrun⟩ :=
    runProgram_alone S (topEnv h) hname semicolons hnesting (Nat.zero_le _)
  have hsteps : (topMachine h).steps + semicolons = semicolons := Nat.zero_add _
  rw [hsteps] at hrun
  refine ⟨h.nextMark, ⟨f, (topEnv h).scope, (topEnv h).source⟩, m', ?_⟩
  unfold Registry.programValue
  rw [Run.bind_ok (openTop_apply h)]
  by_cases hspent : S.limits.steps ≤ semicolons
  · rw [if_pos hspent] at hrun
    rw [if_pos hspent]
    exact Run.bind_error hrun _
  · rw [if_neg hspent] at hrun
    rw [if_neg hspent, Run.bind_ok hrun]
    have hfirst : firstFunctionName (f.alone semicolons) = some name := by
      unfold Function.alone firstFunctionName
      rw [hname]
      rfl
    show EStateM.Result.ok (m'.heap.lookup? (topEnv h).scope binding <|>
      (firstFunctionName (f.alone semicolons)).bind fun name =>
        m'.heap.lookup? (topEnv h).scope name) m' = _
    rw [hfirst, Option.bind_some, hheap, lookup?_declaring_top, lookup?_declaring_top, if_pos rfl]
    split <;> rfl

end Snippet

namespace Registry

open Snippet

variable {r : Registry} {name source : String} {f : Function}

/-! ## 2. Registering one -/

theorem isOk_register_function (hname : Text.trim name = name) (hnonempty : name ≠ "")
    (hbinding : binding? name (Text.trim source) = some name)
    (hread : readProgram (Text.trim source) = .ok [.function f]) (hf : f.name = some name) :
    (r.register name source).1.isOk ↔ r.limits.steps ≠ 0 := by
  have hempty : ¬ name.isEmpty = true := fun h => hnonempty (String.isEmpty_iff.mp h)
  obtain ⟨mark, c, m, hrun⟩ := programValue_alone r.setting name hf 0 r.heap
  unfold register
  dsimp only
  rw [hname, if_neg hempty]
  unfold compile codeValue
  rw [hbinding]
  dsimp only
  rw [hread]
  dsimp only
  by_cases hsteps : r.limits.steps = 0
  · have hspent : r.setting.limits.steps ≤ 0 := Nat.le_of_eq hsteps
    rw [if_pos hspent] at hrun
    rw [perform_error hrun]
    simp [hsteps, Except.isOk, Except.toBool]
  · have hleft : ¬ r.setting.limits.steps ≤ 0 := fun h => hsteps (Nat.le_zero.mp h)
    rw [if_neg hleft] at hrun
    rw [perform_ok hrun]
    simp [hsteps, Except.isOk, Except.toBool, Value.isCallable]

/-- The program declares one function, under the name. -/
def declares (name : String) : Except Error (List Stmt) → Bool
  | .ok [.function f] => f.name == some name
  | _ => false

theorem exists_of_declares {program : Except Error (List Stmt)} (h : declares name program) :
    ∃ f, program = .ok [.function f] ∧ f.name = some name := by
  unfold declares at h
  split at h
  · next f => exact ⟨f, rfl, by simpa using h⟩
  · cases h

/-- The program that some characters are read as. -/
def readChars (cs : List Char) : Except Error (List Stmt) :=
  match tokensFrom (cs.length + 1) [] ⟨0, cs⟩ with
  | .error e => .error e
  | .ok tokens =>
    match (do Production.statementsFrom [] (← Production.bound) : Production _).run { tokens } with
    | .ok program _ => .ok program
    | .error e _ => .error e

theorem readChars_toList (source : String) : readChars source.toList = readProgram source := by
  unfold readChars readProgram Production.onSource tokenize Place.ofText
  dsimp only
  cases tokensFrom (source.toList.length + 1) [] ⟨0, source.toList⟩ with
  | error e => rfl
  | ok tokens =>
    dsimp only
    split <;> next h => rw [h]

/-- The characters of the default parser: no blanks at their ends, a word, and a function. -/
theorem shapeSource_chars :
    Text.dropEndBlanks (Text.dropBlanks shapeSource.toList) = shapeSource.toList ∧
      "function".toList.isPrefixOf shapeSource.toList = true ∧
      declares shapeName (readChars shapeSource.toList) = true := by
  unfold shapeSource Text.join
  rw [String.toList_intercalate]
  simp only [List.map_cons, List.map_nil]
  -- line by line, for a text is decoded slowly
  repeat rw [String.toList_ofList]
  decide +kernel

theorem trim_shapeSource : Text.trim shapeSource = shapeSource := by
  apply String.toList_inj.mp
  unfold Text.trim
  rw [String.toList_ofList, shapeSource_chars.1]

theorem binding?_shapeSource (name : String) : binding? name shapeSource = some name := by
  have hstart : Text.hasStart shapeSource "function" = true := shapeSource_chars.2.1
  unfold binding?
  rw [if_pos hstart]

theorem isOk_register_shape (r : Registry) :
    (r.register shapeName shapeSource).1.isOk ↔ r.limits.steps ≠ 0 := by
  have hname : Text.trim shapeName = shapeName := by decide +kernel
  have hread : declares shapeName (readProgram shapeSource) := by
    rw [← readChars_toList]
    exact shapeSource_chars.2.2
  obtain ⟨f, hread, hf⟩ := exists_of_declares hread
  rw [← trim_shapeSource] at hread
  refine isOk_register_function hname (by decide) ?_ hread hf
  rw [trim_shapeSource]
  exact binding?_shapeSource shapeName

end Registry

end TraceViewer
