import TraceViewer.Proofs.Snippet.Programs
import TraceViewer.Proofs.Snippet.Running
import TraceViewer.Proofs.Snippet.Scoping

/-!
# What a program declares first

Variables that a program declares stay in their scope until it ends.  So where a program ends, the
names of its first statement are bound (`runProgram_declares`), and which statement this is shows in
the first tokens of the text: a keyword with a name behind it declares the name, and what begins an
expression begins no other statement, apart from an opening brace and the word "function".
-/

namespace TraceViewer.Snippet

/-! ## 1. Variables that stay -/

/-- The names that a statement declares in the scope that it stands in. -/
def Stmt.declares : Stmt → List String
  | .declare bindings => bindings.map (·.1)
  | .function f => f.name.toList
  | _ => []

/-- The scope itself has a variable of the name. -/
def Heap.Has (h : Heap) (scope : Nat) (name : String) : Prop := (h.own? scope name).isSome = true

variable {S : Setting} {own : Option Nat} {h g : Heap} {env : Env} {scope : Nat} {name : String}

theorem Heap.has_iff : h.Has scope name ↔
    ∃ s, h.scopes[scope]? = some s ∧ (s.vars.lookup name).isSome = true := by
  unfold Heap.Has Heap.own?
  cases h.scopes[scope]? <;> simp

theorem Heap.has_declare (hscope : scope < h.scopes.size) (name : String) (v : Value) :
    (h.declare scope name v).Has scope name := by
  have hs := Array.getElem?_eq_getElem hscope
  unfold Heap.Has Heap.own? Heap.declare
  rw [Heap.scopes_modifyVars, if_pos rfl, hs, Option.map_some, Option.bind_some,
    lookup_setVar_self]
  rfl

theorem Heap.Frames.has {W : Watch} (hg : h.Frames W own g) (hhas : h.Has scope name) :
    g.Has scope name := by
  obtain ⟨s, hs, hname⟩ := Heap.has_iff.mp hhas
  obtain ⟨t, ht, hst, -⟩ := hg.scope scope s hs
  have hmem := hst.grows (lookup_isSome_iff.mp hname)
  exact Heap.has_iff.mpr ⟨t, ht, lookup_isSome_iff.mpr hmem⟩

/-! ## 2. Running declarations -/

namespace Sparing

variable {α : Type} {P : Heap → α → Prop} {r : Run α}

/-- With nothing to watch, what matters of a run is what it declares. -/
abbrev Leaves (S : Setting) (scope : Nat) (name : String) (h : Heap) (r : Run α) : Prop :=
  Sparing S (fun _ _ => False) (some scope) h (fun g _ => g.Has scope name) r

/-- A variable that is there stays there. -/
theorem keeps (hhas : h.Has scope name)
    (hr : Sparing S (fun _ _ => False) (some scope) h P r) : Leaves S scope name h r := by
  intro ht m hm
  have hx := hr ht m hm
  generalize r m = x at hx
  cases hx with
  | ok hn ht _ => exact .ok hn ht (hn.has hhas)
  | error hn ht => exact .error hn ht

theorem leaves_declare (hscope : scope < h.scopes.size) (name : String) (v : Value) :
    Leaves S scope name h (Run.changeHeap fun h => h.declare scope name v) := by
  rintro ht m rfl
  exact .ok (.declare m.heap scope name v) (ht.setVar _ _ fun _ _ => Heap.safe_unwatched)
    (Heap.has_declare hscope name v)

/-- Functions are declared before the first statement runs. -/
theorem leaves_hoist {f : Function} {body : List Stmt} (hf : .function f ∈ body)
    (hname : f.name = some name) (hscope : env.scope < h.scopes.size) :
    Leaves S env.scope name h (Eval.hoist env body) := by
  induction body generalizing h with
  | nil => cases hf
  | cons s rest ih =>
    rcases List.mem_cons.mp hf with rfl | hrest
    · -- the function is declared here, and the rest of the block keeps it
      unfold Eval.hoist
      rw [hname]
      refine .bind (.closure Heap.safe_unwatched) fun g₁ v hg₁ _ => ?_
      have hscope₁ : env.scope < g₁.scopes.size := hg₁.inPlace.lt hscope
      refine .bind (leaves_declare hscope₁ name v) fun g₂ _ _ hhas => ?_
      exact keeps hhas (Evaluators.Sparing.hoist Heap.safe_unwatched)
    · cases s with
      | function f' =>
        unfold Eval.hoist
        dsimp only
        split
        · refine .bind (.closure Heap.safe_unwatched) fun g₁ v hg₁ _ => ?_
          refine .bind (.declare _ fun _ _ => Heap.safe_unwatched) fun g₂ _ hg₂ _ => ?_
          exact ih hrest ((hg₁.trans hg₂).inPlace.lt hscope)
        · exact ih hrest hscope
      | _ => exact ih hrest hscope

section Inner

variable {inner : Evaluators} (hin : inner.Sparing S fun _ _ => False)
include hin

theorem leaves_declareAll {bindings : List (String × Option Expr)}
    (hname : name ∈ bindings.map (·.1)) (hscope : env.scope < h.scopes.size) :
    Leaves S env.scope name h (Eval.declareAll inner env bindings) := by
  induction bindings generalizing h with
  | nil => cases hname
  | cons binding rest ih =>
    obtain ⟨first, init⟩ := binding
    have hdeclare (g : Heap) (v : Value) (hg : h.InPlace g) : Leaves S env.scope name g (do
        Run.changeHeap fun h => h.declare env.scope first v
        Eval.declareAll inner env rest) := by
      rcases List.mem_cons.mp hname with rfl | hrest
      · refine .bind (leaves_declare (hg.lt hscope) _ v) fun g' _ _ hhas => ?_
        exact keeps hhas (hin.declareAll Heap.safe_unwatched)
      · refine .bind (.declare first fun _ _ => Heap.safe_unwatched) fun g' _ hg' _ => ?_
        exact ih hrest ((hg.trans hg'.inPlace).lt hscope)
    cases init with
    | none => exact hdeclare h _ (.of_scopes rfl)
    | some e => exact .bind (hin.eval Heap.safe_unwatched) fun g v hg _ => hdeclare g v hg.inPlace

end Inner

/-- Where a block comes to its end, the names of its first statement are bound. -/
theorem leaves_execBlock (n : Nat) {s : Stmt} {rest : List Stmt} (hname : name ∈ s.declares)
    (hscope : env.scope < h.scopes.size) :
    Leaves S env.scope name h (Eval.execBlock (Eval.level S n) env (s :: rest)) := by
  have hin (n : Nat) : (Eval.level S n).Sparing S fun _ _ => False := sparing_level S _ n
  unfold Eval.execBlock
  cases s with
  | function f =>
    have hf : f.name = some name := by simpa [Stmt.declares, eq_comm] using hname
    refine .bind (leaves_hoist List.mem_cons_self hf hscope) fun g _ _ hhas => ?_
    exact keeps hhas ((hin n).execAll Heap.safe_unwatched)
  | declare bindings =>
    -- hoisting comes first, and leaves the scope in its place
    refine .bind (Evaluators.Sparing.hoist Heap.safe_unwatched) fun g _ hg _ => ?_
    have hscope : env.scope < g.scopes.size := hg.inPlace.lt hscope
    unfold Eval.execAll
    refine .bind (P := fun g _ => g.Has env.scope name) ?_ fun g' flow _ hhas => ?_
    · cases n with
      | zero => exact sparing_refused S _
      | succ n =>
        refine .bind (.tick _) fun g₁ _ hg₁ _ => .nested ?_
        have hdeclared := leaves_declareAll (hin n) hname (hg₁.inPlace.lt hscope)
        exact .bind hdeclared fun _ _ _ hhas => .pure hhas
    · cases flow with
      | normal => exact keeps hhas ((hin n).execAll Heap.safe_unwatched)
      | _ => exact .pure hhas
  | _ => cases hname

end Sparing

theorem runProgram_declares {m n : Machine} {s : Stmt} {rest : List Stmt} {value : Option Value}
    (hname : name ∈ s.declares) (hscope : env.scope < m.heap.scopes.size)
    (h : runProgram S env (s :: rest) m = .ok value n) : n.heap.Has env.scope name := by
  rw [runProgram_apply] at h
  obtain ⟨flow, hblock, -⟩ := Run.eq_ok_of_map h
  have hleaves : Sparing.Leaves S env.scope name m.heap (Eval.execBlock
      (Eval.level S (maxNesting - m.nesting.now)) env (s :: rest)) :=
    Sparing.leaves_execBlock _ hname hscope
  have hleaves := hleaves (Heap.tame_unwatched S m.heap) m rfl
  have hblock : Eval.execBlock (Eval.level S (maxNesting - m.nesting.now)) env (s :: rest) m =
    .ok flow n := hblock
  rw [hblock] at hleaves
  cases hleaves with
  | ok _ _ hhas => exact hhas

/-! ## 3. The first statement of a text -/

namespace Production

variable {inner : Level} {c : Cursor} {word source : String} {t : Token} {ts : List Token} {n : Nat}
  {program : List Stmt} {Q : Stmt → Prop}

theorem endsAt_statementsFrom_append (acc : List Stmt) (rounds : Nat) (c : Cursor) :
    EndsAt c (statementsFrom acc rounds) fun program _ =>
      ∃ rest, program = acc.reverse ++ rest := by
  induction rounds generalizing acc c with
  | zero => exact fails_stall.endsAt
  | succ rounds ih =>
    refine .get ?_
    split
    · exact .pure ⟨[], (List.append_nil _).symm⟩
    · refine .second fun s c₁ program c₂ h => ?_
      obtain ⟨rest, rfl⟩ := ih _ _ program c₂ h
      exact ⟨s :: rest, by rw [List.reverse_cons, List.append_assoc, List.singleton_append]⟩

theorem exists_first_of_readProgram (htokens : tokenize source = .ok (t :: ts))
    (ht : t.lexeme ≠ .finish)
    (h : EndsAt ⟨t :: ts, 1, 0⟩ (statementLevel (level 128)) fun s _ => Q s)
    (hprogram : readProgram source = .ok program) : ∃ s rest, program = s :: rest ∧ Q s := by
  obtain ⟨c', hstatements⟩ := (readProgram_eq_ok htokens).mp hprogram
  let start : Cursor := ⟨t :: ts, 0, 0⟩
  have hmore : start.atEnd = false := by
    unfold Cursor.atEnd
    split
    · next h => exact absurd h ht
    · rfl
  have hends : EndsAt start (statementsFrom [] (ts.length + 1)) fun program _ =>
      ∃ s rest, program = s :: rest ∧ Q s := by
    refine .get ?_
    rw [hmore, if_neg Bool.false_ne_true]
    refine (endsAt_nested (c := start) h).bind fun s c₁ hs program c₂ hrest => ?_
    obtain ⟨_, hs, -⟩ := hs
    obtain ⟨rest, rfl⟩ := endsAt_statementsFrom_append _ _ _ program c₂ hrest
    exact ⟨s, rest, rfl, hs⟩
  exact hends program c' hstatements

theorem exists_tokens_of_readProgram (hprogram : readProgram source = .ok program) :
    ∃ ts, tokenize source = .ok ts := by
  unfold readProgram onSource at hprogram
  split at hprogram
  · cases hprogram
  · next ts htokens => exact ⟨ts, htokens⟩

/-- The statement declares the name that comes behind its keyword. -/
def DeclaresNext (c : Cursor) (s : Stmt) : Prop :=
  ∃ name, c.advance.lexeme = .name name ∧ name ∈ s.declares

theorem declaresNext_of_function (hc : c.lexeme = .name "function") :
    EndsAt c (statementLevel inner) fun s _ => DeclaresNext c s := by
  intro s c' hs
  rw [statementLevel_function hc, map_eq_pure_bind] at hs
  have hends : EndsAt c.advance (functionRest inner true >>= fun f => pure (Stmt.function f))
      fun s _ => DeclaresNext c s := by
    refine (endsAt_functionRest true _).bind fun f c₁ hf => .pure ?_
    obtain ⟨hfalse, -⟩ | ⟨name, hname, hf⟩ := hf
    · cases hfalse
    · refine ⟨name, hname, ?_⟩
      show name ∈ f.name.toList
      rw [hf]
      exact List.mem_singleton_self name
  exact hends s c' hs

theorem endsAt_bindingsFrom (acc : List (String × Option Expr)) (rounds : Nat) (c : Cursor) :
    EndsAt c (bindingsFrom inner acc rounds) fun bindings _ => (∀ b ∈ acc, b ∈ bindings) ∧
      ∃ name, c.lexeme = .name name ∧ name ∈ bindings.map (·.1) := by
  induction rounds generalizing acc c with
  | zero => exact fails_stall.endsAt
  | succ rounds ih =>
    refine (endsAt_bindingName c).bind fun name c₁ hname => ?_
    have hrest (value : Option Expr) (c₂ : Cursor) : EndsAt c₂ (do
        if ← eat .comma then bindingsFrom inner ((name, value) :: acc) rounds
        else return ((name, value) :: acc).reverse) fun bindings _ =>
          (∀ b ∈ acc, b ∈ bindings) ∧
            ∃ name, c.lexeme = .name name ∧ name ∈ bindings.map (·.1) := by
      have hall {bindings : List (String × Option Expr)}
          (h : ∀ b ∈ (name, value) :: acc, b ∈ bindings) : (∀ b ∈ acc, b ∈ bindings) ∧
            ∃ name, c.lexeme = .name name ∧ name ∈ bindings.map (·.1) := by
        obtain ⟨hfirst, hothers⟩ := List.forall_mem_cons.mp h
        exact ⟨hothers, name, hname.1, List.mem_map.mpr ⟨_, hfirst, rfl⟩⟩
      refine .second fun more c₃ => ?_
      split
      · exact fun bindings c₄ h => hall (ih _ _ bindings c₄ h).1
      · exact .pure (hall fun b hb => List.mem_reverse.mpr hb)
    refine .second fun isInit c₂ => ?_
    split
    · exact .second fun value c₃ => hrest value c₃
    · exact hrest none c₂

theorem declaresNext_of_declarator (hc : c.lexeme = .name word) (hword : word ∈ declarators) :
    EndsAt c (statementLevel inner) fun s _ => DeclaresNext c s := by
  have hpunct (p : Punct) : c.atPunct p = false := by
    unfold Cursor.atPunct
    rw [hc]
  have hat (w : String) : c.atWord w = (word == w) := by
    unfold Cursor.atWord
    rw [hc]
  have hfunction : ∀ w ∈ declarators, (w == "function") = false := by decide
  have hdeclarator : ∀ w ∈ declarators, (w == "const" || w == "let" || w == "var") = true := by
    decide
  have hdeclaration : atDeclaration c = true := by
    unfold atDeclaration
    rw [hat, hat, hat]
    exact hdeclarator word hword
  have hdeclared : EndsAt c.advance (declaration inner) fun s _ => DeclaresNext c s := by
    refine (endsAt_bound _).bind fun rounds c₁ hsame => ?_
    subst hsame
    exact (endsAt_bindingsFrom [] rounds _).bind fun bindings _ h => .pure h.2
  -- the kinds of statements are tried in order, up to the declaration
  refine (endsAt_eat c .semicolon).bind fun found c₁ hfound => ?_
  split at hfound
  · rw [hc] at hfound
    cases hfound.1
  next hnot =>
  subst hfound
  rw [if_neg hnot]
  refine .get ?_
  rw [hpunct, if_neg Bool.false_ne_true]
  refine endsAt_unlessWord ((hat _).trans (hfunction word hword)) ?_
  rw [hdeclaration, if_pos rfl]
  refine (endsAt_advance _).bind fun _ c₁ hsame => ?_
  subst hsame
  exact hdeclared.bind fun s _ h => .second fun _ _ => .pure h

/-- A text that starts with the keyword of a declaration declares the name behind it first. -/
theorem declares_of_readProgram {offset : Nat} (hword : word = "function" ∨ word ∈ declarators)
    (htokens : tokenize source = .ok (⟨.name word, offset⟩ :: ts))
    (hprogram : readProgram source = .ok program) :
    ∃ name i ts', ts = ⟨.name name, i⟩ :: ts' ∧
      ∃ s rest, program = s :: rest ∧ name ∈ s.declares := by
  let start : Cursor := ⟨⟨.name word, offset⟩ :: ts, 1, 0⟩
  have hfirst : EndsAt start (statementLevel (level 128)) fun s _ => DeclaresNext start s := by
    rcases hword with rfl | hword
    · exact declaresNext_of_function rfl
    · exact declaresNext_of_declarator rfl hword
  obtain ⟨s, rest, rfl, name, hname, hs⟩ :=
    exists_first_of_readProgram htokens nofun hfirst hprogram
  obtain ⟨us, k, hus⟩ := exists_of_tokenize_cons htokens nofun
  cases ts with
  | nil => simp at hus
  | cons t ts =>
    obtain ⟨l, i⟩ := t
    obtain rfl : l = .name name := hname
    exact ⟨name, i, ts, rfl, s, rest, rfl, hs⟩

/-! ## 4. Expressions that are no other statement -/

/-- Nothing is read where neither an operand nor the parameters of an arrow function start. -/
theorem not_assignment (hunsigned : isPrefix c.lexeme = false)
    (hprimary : EndsAt { c with depth := c.depth + 2 } (primary (level n)) fun _ _ => False)
    (harrow : EndsAt { c with depth := c.depth + 1 } arrowParams? fun names c' =>
      names = none ∧ c' = { c with depth := c.depth + 1 }) :
    EndsAt c (level (n + 2)).assignment fun _ _ => False := by
  have hunary : EndsAt { c with depth := c.depth + 1 } (level (n + 1)).unary
      (Begins fun _ _ => False) := endsAt_unary hunsigned hprimary
  have hassignment : EndsAt { c with depth := c.depth + 1 } (assignmentLevel (level (n + 1)))
      fun _ _ => False := by
    refine harrow.bind fun names c₁ h => ?_
    obtain ⟨rfl, rfl⟩ := h
    refine (endsAt_conditional hunary).bind fun _ _ h => ?_
    obtain ⟨_, _, hfalse, -⟩ := h
    exact hfalse.elim
  intro e c' he
  obtain ⟨_, hfalse, -⟩ := endsAt_nested hassignment e c' he
  exact hfalse

/-- No expression starts at the end of a text or at a semicolon. -/
theorem not_assignment_close (hc : c.lexeme = .finish ∨ c.lexeme = .punct .semicolon) :
    EndsAt c (level (n + 2)).assignment fun _ _ => False := by
  refine not_assignment ?_ ?_ ?_
  · rcases hc with hc | hc <;>
    · rw [hc]
      rfl
  · refine .get (.second fun _ _ => ?_)
    rcases hc with hc | hc <;>
    · rw [show Cursor.lexeme { c with depth := c.depth + 2 } = _ from hc]
      exact fails_throw.endsAt
  · refine .get ?_
    rcases hc with hc | hc <;>
    · rw [show Cursor.lexeme { c with depth := c.depth + 1 } = _ from hc]
      exact .pure ⟨rfl, rfl⟩

/-- Apart from the word "function" no expression starts with a word that starts a statement. -/
theorem not_assignment_word (hc : c.lexeme = .name word) (hword : word ∈ statementWords)
    (hne : word ≠ "function") : EndsAt c (level (n + 2)).assignment fun _ _ => False := by
  have hwords : ∀ w ∈ statementWords, w ≠ "function" → isReserved w = true ∧ w ≠ "typeof" ∧
      (w == "true") = false ∧ (w == "false") = false ∧ (w == "null") = false ∧
      (w == "undefined") = false ∧ (w == "function") = false := by
    decide
  obtain ⟨hreserved, htypeof, htrue, hfalse, hnull, hundefined, hfunction⟩ := hwords word hword hne
  refine not_assignment ?_ ?_ ?_
  · rw [hc]
    show (unaryOp? (.name word)).isSome = false
    rw [unaryOp?_name htypeof]
    rfl
  · refine .get (.second fun _ _ => ?_)
    rw [show Cursor.lexeme { c with depth := c.depth + 2 } = _ from hc]
    dsimp only
    rw [htrue, hfalse, hnull, hundefined, hfunction, hreserved]
    exact fails_throw.endsAt
  · intro names c' h
    have hnames := endsAt_arrowParams?_name (c := { c with depth := c.depth + 1 }) hc names c' h
    dsimp only at hnames
    split at hnames
    · rw [hreserved] at hnames
      cases hnames.1
    · next hnone => exact ⟨by simpa using hnone, hnames⟩

/-- An expression starts no other statement, unless with an opening brace or the word "function". -/
theorem not_startsStatement_of_readExpr {e : Expr} (htokens : tokenize source = .ok (t :: ts))
    (hread : readExpr source = .ok e) (hbrace : t.lexeme ≠ .punct .braceOpen)
    (hfunction : t.lexeme ≠ .name "function") :
    t.lexeme ≠ .finish ∧ startsStatement ⟨t :: ts, 0, 0⟩ = false := by
  obtain ⟨_, c, htokens', hrun, -⟩ := exists_of_readExpr hread
  obtain rfl := Except.ok.inj (htokens.symm.trans htokens')
  let start : Cursor := ⟨t :: ts, 0, 0⟩
  have hclose : ¬(start.lexeme = .finish ∨ start.lexeme = .punct .semicolon) :=
    fun h => not_assignment_close (n := 127) h e c hrun
  refine ⟨fun h => hclose (.inl h), ?_⟩
  by_contra hstarts
  have hstarts := Bool.not_eq_false _ |>.mp hstarts
  rcases Bool.or_eq_true_iff.mp hstarts with hpunct | hword
  · rcases Bool.or_eq_true_iff.mp hpunct with hpunct | hpunct
    · exact hclose (.inr (lexeme_of_atPunct hpunct))
    · exact hbrace (lexeme_of_atPunct hpunct)
  · obtain ⟨word, hword, hat⟩ := List.any_eq_true.mp hword
    have hname : start.lexeme = .name word := lexeme_of_atWord hat
    have hne : word ≠ "function" := by
      rintro rfl
      exact hfunction hname
    exact not_assignment_word (n := 127) hname hword hne e c hrun

end Production

end TraceViewer.Snippet
