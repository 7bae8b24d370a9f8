import TraceViewer.Proofs.Parser.Declaring
import TraceViewer.Proofs.Parser.Sound
import TraceViewer.Proofs.Snippet.Programs
import TraceViewer.Proofs.Snippet.Scoping

/-!
# Expressions that become parsers

What a source text looks like at its start decides whether it is compiled as a program or as an
expression.  The variable that an assignment or an arrow seems to bind never misleads
(`binding?_of_givesCallable`).  The letters of the word "function" do: a text that starts with them
is registered only if it is a program too, that is if they are the word and a name follows.
-/

namespace TraceViewer

namespace Snippet

variable {S : Setting} {env : Env} {m n : Machine} {name : String}

/-- Functions with a name of their own. -/
def Expr.isNamed : Expr → Bool
  | .function f => f.name.isSome
  | _ => false

theorem Expr.exists_of_isNamed {e : Expr} (h : e.isNamed = true) :
    ∃ f, e = .function f ∧ f.name ≠ none := by
  cases e with
  | function f => exact ⟨f, rfl, Option.isSome_iff_ne_none.mp h⟩
  | _ => cases h

/-! ## 1. Scopes without variables -/

/-- An expression adds no variable to a scope that is there. -/
theorem find?_of_eval {e : Expr} {v : Value}
    (hrun : (Eval.within S m.nesting).eval env e m = .ok v n) {i : Nat}
    (hi : i < m.heap.scopes.size) (h : m.heap.find? i name = none) :
    n.heap.find? i name = none := by
  have hrun : runExpr S env e m = .ok v n := hrun
  have hframes : m.heap.Frames (fun _ _ => False) none (machineAfter (runExpr S env e m)).heap :=
    (Piece.expr env e).frames S m (fun _ _ hw => hw.elim) fun _ _ _ => Heap.safe_unwatched
  have hfound := hframes.find?_fst hi name
  rw [hrun, h] at hfound
  exact Option.map_eq_none_iff.mp hfound

theorem find?_topMachine (h : Heap) (name : String) :
    (topMachine h).heap.find? (topEnv h).scope name = none := by
  have hscope : (topMachine h).heap.scopes[(topEnv h).scope]? = some ⟨[], none⟩ :=
    Array.getElem?_push_size
  unfold Heap.find?
  rw [hscope]
  rfl

theorem lt_size_topMachine (h : Heap) : (topEnv h).scope < (topMachine h).heap.scopes.size := by
  show h.scopes.size < (h.scopes.push _).size
  rw [Array.size_push]
  exact Nat.lt_succ_self _

theorem store_ne_ok {v : Value} (h : m.heap.find? env.scope name = none) :
    Eval.store env name v m ≠ .ok () n := by
  intro hstore
  obtain ⟨_, m₁, hnote, hstore⟩ := Run.eq_ok_of_bind hstore
  have hheap : m₁.heap = m.heap := by
    unfold Run.noteEscape at hnote
    split at hnote <;> cases hnote <;> rfl
  have hassign : Eval.assign env name v m₁ = .ok false m₁ := by
    have hnone : m₁.heap.assign? env.scope name v = none := by
      unfold Heap.assign?
      rw [hheap, h]
      rfl
    have hask : Run.askHeap (fun h => h.assign? env.scope name v) m₁ = .ok none m₁ := by
      show EStateM.Result.ok (m₁.heap.assign? env.scope name v) m₁ = _
      rw [hnone]
    unfold Eval.assign
    rw [Run.bind_ok hask]
    rfl
  rw [Run.bind_ok hassign] at hstore
  cases hstore

/-- A source text cannot begin by assigning to a variable. -/
theorem exprValue_assign_ne_ok (S : Setting) (name : String) (e : Expr) (h : Heap) (v : Value)
    (n : Machine) : Registry.exprValue S (.assign name none e) { heap := h } ≠ .ok v n := by
  intro hvalue
  unfold Registry.exprValue at hvalue
  rw [Run.bind_ok (openTop_apply h), runExpr_apply, eval_apply] at hvalue
  obtain ⟨_, hbody, -⟩ := eq_ok_of_stepped hvalue
  obtain ⟨w, m₁, hright, hrest⟩ := Run.eq_ok_of_bind hbody
  obtain ⟨_, m₂, hstore, -⟩ := Run.eq_ok_of_bind hrest
  have hnone := find?_of_eval (m := (topMachine h).entered) hright (lt_size_topMachine h)
    (find?_topMachine h name)
  exact store_ne_ok hnone hstore

/-- A program that is an expression binds nothing. -/
theorem programValue_expr_ne_some (S : Setting) (binding : String) (e : Expr) (h : Heap) (v : Value)
    (n : Machine) : Registry.programValue S binding [.expr e] { heap := h } ≠ .ok (some v) n := by
  intro hvalue
  unfold Registry.programValue at hvalue
  rw [Run.bind_ok (openTop_apply h)] at hvalue
  obtain ⟨_, m₁, hprogram, hrest⟩ := Run.eq_ok_of_bind hvalue
  rw [runProgram_apply] at hprogram
  obtain ⟨flow, hblock, -⟩ := Run.eq_ok_of_map hprogram
  obtain ⟨_, _, hhoist, hall⟩ := Run.eq_ok_of_bind hblock
  cases hhoist
  obtain ⟨flow', m₂, hexec, hall⟩ := Run.eq_ok_of_bind hall
  rw [exec_apply] at hexec
  obtain ⟨m₃, hbody, rfl⟩ := eq_ok_of_stepped hexec
  obtain ⟨w, _, heval, hnormal⟩ := Run.eq_ok_of_bind hbody
  cases hnormal
  have hnone := find?_of_eval (m := (topMachine h).entered) heval (lt_size_topMachine h)
    (find?_topMachine h binding)
  cases hall
  have hlookup : m₃.heap.lookup? (topEnv h).scope binding = none := by
    unfold Heap.lookup?
    rw [hnone]
    rfl
  have hend : (EStateM.Result.ok (m₃.heap.lookup? (topEnv h).scope binding <|> none) m₃.left :
      EStateM.Result Error Machine (Option Value)) = .ok (some v) n := hrest
  rw [hlookup] at hend
  cases hend

end Snippet

namespace Registry

open Snippet

variable {r : Registry} {name code source binding : String} {e : Expr} {v : Value}

/-! ## 2. Two ways to compile a text -/

/-- The text is this expression, and the value of it is a function. -/
def GivesCallable (r : Registry) (code : String) (e : Expr) : Prop :=
  readExpr code = .ok e ∧
    ∃ v, (r.perform fun S => exprValue S e).1 = .ok v ∧ v.isCallable = true

/-- Whether a text is an expression with a function as its value. -/
def givesCallable (r : Registry) (code : String) : Bool :=
  match readExpr code with
  | .error _ => false
  | .ok e =>
    match (r.perform fun S => exprValue S e).1 with
    | .error _ => false
    | .ok v => v.isCallable

theorem exists_of_givesCallable (h : r.givesCallable code = true) :
    ∃ e, r.GivesCallable code e := by
  unfold givesCallable at h
  split at h
  · cases h
  next e hread =>
  split at h
  · cases h
  · next v hvalue => exact ⟨e, hread, v, hvalue, h⟩

/-- The text is a program, and the value that it leaves under the name is a function. -/
def DeclaresCallable (r : Registry) (name code : String) : Prop :=
  ∃ program, readProgram code = .ok program ∧
    ∃ v, (r.perform fun S => programValue S name program).1 = .ok (some v) ∧ v.isCallable = true

theorem codeValue_of_program (h : binding? name code = some binding) :
    (r.codeValue name code).1 = .ok v ↔ ∃ program, readProgram code = .ok program ∧
      (r.perform fun S => programValue S binding program).1 = .ok (some v) := by
  unfold codeValue
  rw [h]
  dsimp only
  cases readProgram code with
  | error fault => simp
  | ok program =>
    rcases hrun : r.perform fun S => programValue S binding program with ⟨value | value, r'⟩
    · simp [hrun]
    · cases value <;> simp [hrun]

theorem codeValue_of_expr (h : binding? name code = none) :
    (r.codeValue name code).1 = .ok v ↔ ∃ e, readExpr code = .ok e ∧
      (r.perform fun S => exprValue S e).1 = .ok v := by
  unfold codeValue
  rw [h]
  dsimp only
  cases readExpr code with
  | error fault => simp
  | ok e =>
    rcases hrun : r.perform fun S => exprValue S e with ⟨value | value, r'⟩ <;> simp [hrun]

/-- A name is registered exactly when the text gives a function. -/
theorem register_eq_ok (hname : Text.trim name ≠ "") : (r.register name source).1 = .ok () ↔
    ∃ v, (r.codeValue (Text.trim name) (Text.trim source)).1 = .ok v ∧ v.isCallable = true := by
  have hempty : ¬ (Text.trim name).isEmpty = true := fun h => hname (String.isEmpty_iff.mp h)
  unfold register compile
  dsimp only
  rw [if_neg hempty]
  generalize r.codeValue (Text.trim name) (Text.trim source) = outcome
  obtain ⟨value | value, r'⟩ := outcome
  · simp
  · by_cases hcallable : value.isCallable = true
    · simp [hcallable]
    · simp [hcallable]

theorem register_of_program (hname : Text.trim name ≠ "")
    (h : Text.hasStart (Text.trim source) "function" = true) : (r.register name source).1 = .ok () ↔
      r.DeclaresCallable (Text.trim name) (Text.trim source) := by
  have hbinding : binding? (Text.trim name) (Text.trim source) = some (Text.trim name) := by
    unfold binding?
    rw [if_pos h]
  simp only [register_eq_ok hname, codeValue_of_program hbinding]
  constructor
  · rintro ⟨v, ⟨program, hread, hvalue⟩, hcallable⟩
    exact ⟨program, hread, v, hvalue, hcallable⟩
  · rintro ⟨program, hread, v, hvalue, hcallable⟩
    exact ⟨v, ⟨program, hread, hvalue⟩, hcallable⟩

theorem register_of_expr (hname : Text.trim name ≠ "")
    (hbinding : binding? (Text.trim name) (Text.trim source) = none)
    (h : r.GivesCallable (Text.trim source) e) : (r.register name source).1 = .ok () := by
  obtain ⟨hread, v, hvalue, hcallable⟩ := h
  rw [register_eq_ok hname]
  exact ⟨v, (codeValue_of_expr hbinding).mpr ⟨e, hread, hvalue⟩, hcallable⟩

/-! ## 3. Texts that are expressions -/

/-- The performed run ended with a value. -/
theorem exists_of_perform {α : Type} {run : Setting → Run α} {a : α}
    (h : (r.perform run).1 = .ok a) : ∃ m, run r.setting { heap := r.heap } = .ok a m := by
  cases hrun : run r.setting { heap := r.heap } with
  | ok b m =>
    rw [perform_ok hrun] at h
    cases h
    exact ⟨m, rfl⟩
  | error e m =>
    rw [perform_error hrun] at h
    cases h

/-- No variable seems to be bound at the start of an expression that has a value. -/
theorem boundName?_of_givesCallable (hstart : Text.hasStart code "function" = false)
    (h : r.GivesCallable code e) : Parser.boundName? code.toList = none := by
  obtain ⟨hread, v, hvalue, -⟩ := h
  cases hbound : Parser.boundName? code.toList with
  | none => rfl
  | some found =>
    obtain ⟨ts, c, htokens, hrun, -⟩ := Production.exists_of_readExpr hread
    obtain ⟨word, hword, ts', rfl⟩ | ⟨word, n, ts', hletters, rfl⟩ :=
      tokenize_of_boundName? htokens hbound
    · exact (Production.not_assignment_declarator (n := 127) rfl hword e c hrun).elim
    · have hne : word ≠ "function" := by
        rintro rfl
        have hstart' : Text.hasStart code "function" = true :=
          List.isPrefixOf_iff_prefix.mpr hletters
        rw [hstart] at hstart'
        cases hstart'
      obtain ⟨d, rfl⟩ := Production.assigns_of_name (n := 127) rfl hne e c hrun
      obtain ⟨m, hm⟩ := exists_of_perform hvalue
      exact absurd hm (exprValue_assign_ne_ok _ _ _ _ _ _)

theorem binding?_of_givesCallable (hstart : Text.hasStart code "function" = false)
    (h : r.GivesCallable code e) (name : String) : binding? name code = none := by
  unfold binding?
  rw [hstart, if_neg Bool.false_ne_true, boundName?_of_givesCallable hstart h]
  split <;> rfl

/-- The tokens of a text start with the word "function" and a name. -/
def NamesFunction (code : String) : Prop :=
  ∃ i name j ts, tokenize code = .ok (⟨.name "function", i⟩ :: ⟨.name name, j⟩ :: ts)

/-- Of the words that start with the letters of "function" the others are no keywords. -/
theorem isReserved_of_function {word : String} (hword : "function".toList <+: word.toList)
    (hne : word ≠ "function") : isReserved word = false := by
  have hall : ∀ w ∈ reservedWords, w ≠ "function" →
      "function".toList.isPrefixOf w.toList = false := by decide
  by_contra hreserved
  have hmem : word ∈ reservedWords := by simpa [isReserved] using hreserved
  have hnot := hall word hmem hne
  rw [List.isPrefixOf_iff_prefix.mpr hword] at hnot
  cases hnot

theorem isWord_function : IsWord "function" := by
  rw [isWord_iff]
  decide

theorem namesFunction_of_declaresCallable (hstart : Text.hasStart code "function" = true)
    (hread : readExpr code = .ok e) (h : r.DeclaresCallable name code) : NamesFunction code := by
  obtain ⟨program, hprogram, v, hvalue, -⟩ := h
  obtain ⟨ts, c, htokens, -, -⟩ := Production.exists_of_readExpr hread
  obtain ⟨word, ts', hword, rfl⟩ := tokenize_of_hasStart isWord_function htokens hstart
  by_cases hne : word = "function"
  · subst hne
    obtain ⟨g, j, rest, rfl⟩ := Production.named_of_readProgram htokens hprogram
    exact ⟨0, g, j, rest, htokens⟩
  · -- another name starts the same expression again, which declares nothing
    have hstart := Production.startsStatement_of_name (c := ⟨⟨.name word, 0⟩ :: ts', 0, 0⟩) rfl
      (isReserved_of_function hword hne)
    obtain ⟨e', rfl⟩ := Production.eq_expr_of_readProgram htokens nofun hstart hread hprogram
    obtain ⟨m, hm⟩ := exists_of_perform hvalue
    exact absurd hm (programValue_expr_ne_some _ _ _ _ _ _)

/-- A function with a name declares itself, where a semicolon behind it may be run as well. -/
theorem declaresCallable_of_function {f : Function} (hstart : Text.hasStart code "function" = true)
    (hread : readExpr code = .ok (.function f)) (hf : f.name ≠ none) (hsteps : 2 ≤ r.limits.steps) :
    r.DeclaresCallable name code := by
  obtain ⟨ts, c, htokens, hrun, -⟩ := Production.exists_of_readExpr hread
  obtain ⟨word, ts', hword, rfl⟩ := tokenize_of_hasStart isWord_function htokens hstart
  have hword : word = "function" := by
    by_contra hne
    have htypeof : word ≠ "typeof" := by
      rintro rfl
      exact absurd (List.isPrefixOf_iff_prefix.mpr hword) (by decide)
    exact hf (Production.unnamed_of_name (n := 127) rfl hne htypeof _ c hrun f rfl)
  subst hword
  obtain ⟨f', hname, n, hn, hprogram⟩ := Production.readProgram_of_function htokens hread hf
  obtain ⟨g, hg⟩ := Option.ne_none_iff_exists'.mp hname
  obtain ⟨mark, closure, m, hrun⟩ := programValue_alone r.setting name hg n r.heap
  have hspent : ¬ r.setting.limits.steps ≤ n := by
    show ¬ r.limits.steps ≤ n
    omega
  rw [if_neg hspent] at hrun
  exact ⟨f'.alone n, hprogram, .closure mark closure, by rw [perform_ok hrun], rfl⟩

/-- An expression with a function as its value is registered, unless its text starts with the
letters of the word "function".  Such a text must be that word and a name, and what it declares as a
program must be a function; so it is where the expression is a function with a name. -/
theorem register_of_givesCallable (hname : Text.trim name ≠ "")
    (h : r.GivesCallable (Text.trim source) e) :
    ((r.register name source).1 = .ok () ↔
        (Text.hasStart (Text.trim source) "function" = true →
          NamesFunction (Text.trim source) ∧
            r.DeclaresCallable (Text.trim name) (Text.trim source))) ∧
      (e.isNamed = true → 2 ≤ r.limits.steps → (r.register name source).1 = .ok ()) := by
  cases hstart : Text.hasStart (Text.trim source) "function" with
  | false =>
    have hok : (r.register name source).1 = .ok () :=
      register_of_expr hname (binding?_of_givesCallable hstart h _) h
    exact ⟨iff_of_true hok nofun, fun _ _ => hok⟩
  | true =>
    rw [register_of_program hname hstart]
    refine ⟨⟨fun hdeclares _ => ?_, fun hboth => (hboth rfl).2⟩, ?_⟩
    · exact ⟨namesFunction_of_declaresCallable hstart h.1 hdeclares, hdeclares⟩
    · intro hnamed hsteps
      obtain ⟨f, rfl, hf⟩ := Expr.exists_of_isNamed hnamed
      exact declaresCallable_of_function hstart h.1 hf hsteps

/-- A function under another name than the one that is registered. -/
def doubled : String := "function double(x) { return x + x; }"

theorem register_doubled : ∃ e, Text.trim "p" ≠ "" ∧
    ({} : Registry).GivesCallable (Text.trim doubled) e ∧ e.isNamed = true ∧
      (({} : Registry).register "p" doubled).1 = .ok () := by
  have hname : Text.trim "p" ≠ "" := by decide +kernel
  have hgives : ({} : Registry).givesCallable (Text.trim doubled) = true := by decide +kernel
  obtain ⟨e, h⟩ := exists_of_givesCallable hgives
  have hnamed : (readExpr (Text.trim doubled)).toOption.any Expr.isNamed = true := by
    decide +kernel
  rw [h.1] at hnamed
  exact ⟨e, hname, h, hnamed, (register_of_givesCallable hname h).2 hnamed (by decide)⟩

/-- A function without a name. -/
def unnamed : String := "function (x) { return 1; }"

/-- A function without a name is refused where its text starts with the word. -/
theorem not_register_unnamed : ¬∀ (r : Registry) (name source : String) (e : Expr),
    Text.trim name ≠ "" → r.GivesCallable (Text.trim source) e →
      (r.register name source).1 = .ok () := by
  intro h
  have hgives : ({} : Registry).givesCallable (Text.trim unnamed) = true := by decide +kernel
  obtain ⟨e, he⟩ := exists_of_givesCallable hgives
  have hok := h {} "p" unnamed e (by decide +kernel) he
  have hrefused : (({} : Registry).register "p" unnamed).1.isOk = false := by decide +kernel
  rw [hok] at hrefused
  cases hrefused

end Registry

end TraceViewer
